import Oxgraph.Proofs.Db.Database.Calls
import Oxgraph.Proofs.Db.Database.Recovery

/-! What holds in every database that transactions and crashes lead to. -/

namespace Oxgraph

namespace Writer

/-- The mutators that hand out an id, with the family they draw it from. -/
inductive Mints : IdFamily → Mutation DbError Writer UInt64 → Prop
  | role (name : String) : Mints .role (registerRole name)
  | label (name : String) : Mints .label (registerLabel name)
  | relationType (name : String) : Mints .relationType (registerRelationType name)
  | propertyKey (name : String) (family : PropertyFamily) (valueType : PropertyType) :
    Mints .propertyKey (registerPropertyKey name family valueType)
  | projection (definition : ProjectionDefinition) : Mints .projection (defineProjection definition)
  | index (name : String) (definition : IndexDefinition) : Mints .index (defineIndex name definition)
  | element : Mints .element createElement
  | relation : Mints .relation createRelation
  | incidence (relation : RelationId) (element : ElementId) (role : RoleId) :
    Mints .incidence (createIncidence relation element role)

/-- On the way from one writer to another, a mutator returned an id of a family. -/
def HandsOut (start last : Writer) (family : IdFamily) (id : UInt64) : Prop :=
  ∃ mutator before after, Mints family mutator ∧ Relation.ReflTransGen Step start before ∧
    mutator before = (.ok id, after) ∧ Relation.ReflTransGen Step after last

variable {writer after : Writer} {family : IdFamily} {id : UInt64}

/-- An id drawn from a family was its watermark, which moved past it. -/
theorem between_drawn {next : UInt64} (drawn : id = writer.delta.next.get family)
    (fits : checkedNext id = some next) (raised : after.delta.next = writer.delta.next.set family next) :
    writer.delta.next.get family ≤ id ∧ id < after.delta.next.get family := by
  have grown := toNat_of_checkedNext fits
  refine ⟨drawn ▸ UInt64.le_refl _, ?_⟩
  rw [raised, NextIds.get_set, if_pos rfl, UInt64.lt_iff_toNat_lt]
  omega

/-- A create returns the id it drew, and moves no watermark after the draw. -/
theorem create_between {make : UInt64 → WriteOverlay → WriteOverlay}
    (ran : onDelta (WriteOverlay.allocate family >>= fun id =>
      Mutation.modify (make id) >>= fun _ => pure id) writer = (.ok id, after))
    (keeps : ∀ id before, (make id before).next = before.next) :
    writer.delta.next.get family ≤ id ∧ id < after.delta.next.get family := by
  obtain ⟨delta, drew, rfl⟩ := Mutation.onPart_ok ran
  obtain ⟨drawn, middle, allocated, rest⟩ := Mutation.bind_ok.mp drew
  cases rest
  rcases WriteOverlay.allocate_cases allocated with ⟨never, _⟩ | ⟨same, next, fits, rfl⟩
  · cases never
  cases same
  exact between_drawn rfl fits (keeps _ _)

theorem register_between {opKind flags : UInt32} {name : String} {body : Option (List UInt64)}
    {insert : UInt64 → Catalog → Except CatalogError Catalog}
    (ran : onDelta (WriteOverlay.register family opKind flags name body insert) writer =
      (.ok id, after)) :
    writer.delta.next.get family ≤ id ∧ id < after.delta.next.get family := by
  obtain ⟨delta, done, rfl⟩ := Mutation.onPart_ok ran
  obtain ⟨drawn, _, next, fits, raised⟩ := WriteOverlay.register_ok done
  exact between_drawn drawn fits raised

/-- An id that a mutator hands out lies between the watermarks before and after it. -/
theorem Mints.between {mutator : Mutation DbError Writer UInt64} (mints : Mints family mutator)
    (ran : mutator writer = (.ok id, after)) :
    writer.delta.next.get family ≤ id ∧ id < after.delta.next.get family := by
  cases mints with
  | role | label | relationType | propertyKey => exact register_between ran
  | projection definition =>
    obtain ⟨_, middle, valid, registered⟩ := Mutation.bind_ok.mp ran
    obtain ⟨_, rfl⟩ := validateProjectionDefinition_ok valid
    exact register_between registered
  | index name definition =>
    obtain ⟨_, middle, valid, registered⟩ := Mutation.bind_ok.mp ran
    obtain ⟨_, rfl⟩ := validateIndexDefinition_ok valid
    exact register_between registered
  | element | relation => exact create_between ran fun _ _ => rfl
  | incidence relation element role =>
    exact create_between (createIncidence_checked ran) fun _ _ => rfl

theorem Mints.guarded {mutator : Mutation DbError Writer UInt64} (mints : Mints family mutator) :
    Guarded mutator := by
  cases mints with
  | role name => exact registerRole_guarded name
  | label name => exact registerLabel_guarded name
  | relationType name => exact registerRelationType_guarded name
  | propertyKey name family valueType => exact registerPropertyKey_guarded name family valueType
  | projection definition => exact defineProjection_guarded definition
  | index name definition => exact defineIndex_guarded name definition
  | element => exact createElement_guarded
  | relation => exact createRelation_guarded
  | incidence relation element role => exact createIncidence_guarded relation element role

/-- An id handed out on the way lies between the watermarks at the two ends. -/
theorem HandsOut.between {start last : Writer} (handed : HandsOut start last family id)
    (sound : start.merged.Sound) :
    start.delta.next.get family ≤ id ∧ id < last.delta.next.get family := by
  -- The watermark only rises, up to the draw and from it on.
  have rises {before after : Writer} (steps : Relation.ReflTransGen Step before after)
      (sound : before.merged.Sound) : before.delta.next.get family ≤ after.delta.next.get family :=
    DeltaStep.rises (Step.known_steps steps sound.coherent) family
  obtain ⟨mutator, before, after, mints, first, ran, rest⟩ := handed
  obtain ⟨low, high⟩ := mints.between ran
  have drawing := mints.guarded before
  unfold Mutation.Steps at drawing
  rw [ran] at drawing
  have soundAfter := Step.sound drawing (Step.sound first sound)
  exact ⟨UInt64.le_trans (rises first sound) low, UInt64.lt_of_lt_of_le high (rises rest soundAfter)⟩

end Writer

namespace Db

/-- The views a database shows: its snapshot's, and what a program has made of it in a writer. -/
inductive Shows (database : Db) : LayeredState → Prop
  | published : Shows database database.current.view
  | staged {R : Type} {body : Mutation DbError Writer R} (guarded : Writer.Guarded body)
      (transaction : TransactionId) :
      Shows database (body (database.begun transaction)).2.merged

/-- A transaction that runs a program over a database hands out an id on its way. -/
def HandsOut {R : Type} (database : Db) (body : Mutation DbError Writer R) (family : IdFamily)
    (id : UInt64) : Prop :=
  ∃ writer begun, beginWrite database = (.ok writer, begun) ∧
    Writer.HandsOut writer (body writer).2 family id

section Runs

variable [Crc32c] {files : Files} {superblock : SuperblockRecord} {base : BaseView}
  {records : BaseRecords} {database : Db} {view : LayeredState}

/-- Every view a database reached shows is sound. -/
theorem Reached.sound (stored : files.Store superblock base records)
    (reached : Reached files database) (shows_ : database.Shows view) : view.Sound := by
  obtain ⟨frames, holds⟩ := reached.holds stored
  cases shows_ with
  | published => exact holds.sound
  | staged guarded transaction =>
    exact Writer.Step.sound (guarded (database.begun transaction)) holds.sound

/-- In every view that transactions, commits, rollbacks and crashes lead to, every incidence,
property, label and relation type refers to what is visible, and every id in use is below its
family's watermark. -/
theorem reached_integrity (stored : files.Store superblock base records)
    (reached : Reached files database) (shows_ : database.Shows view) :
    view.contents.Integrity view.catalog ∧
      ∀ family id, view.Holds family id → id < view.nextIds.get family :=
  have seen := reached.sound stored shows_
  ⟨seen.integrity, fun _ _ => seen.coherent.bounded⟩

/-- A program that relates a labelled element of an age to another one. -/
def Program.relate : Program Unit := .calls [
  .registerRole "source", .registerLabel "person", .registerRelationType "knows",
  .registerPropertyKey "age" .element .integer, .createElement, .createElement, .createRelation,
  .createIncidence 1 1 1, .createIncidence 1 2 1, .setRelationType 1 1, .addLabel (.element 1) 1,
  .set (.element 1) 1 (.integer 30)]

omit [Crc32c] in
/-- What a writer shows that creates a third element over a relation recovered from a torn log. -/
theorem reached_integrity_created :
    let _ : Crc32c := castagnoli
    let related := (write Program.relate.run created).2
    ∃ recovered, Files.created.open ((write Program.element.run related).2.log.take 1150) =
        .ok recovered ∧
      let view := (Program.element.run (recovered.begun 3)).2.merged
      (view.relationsWithType 1 = [1] ∧ view.elementsWithLabel 1 = [1] ∧
        view.containsIncidence 2 = true ∧
        view.property (.element 1) 1 = some (.integer 30) ∧ view.containsElement 3 = true) ∧
      view.contents.Integrity view.catalog ∧
        ∀ family id, view.Holds family id → id < view.nextIds.get family := by
  intro _
  obtain ⟨_, holds⟩ := reached_created.holds created_store
  have guarded : ∀ body ∈ [Program.relate.run, Program.element.run], Writer.Guarded body := by
    simpa using ⟨Program.relate.run_guarded, Program.element.run_guarded⟩
  -- The frames end at 1100 and 1300.
  have recovers : RecoversPrefix .created [Program.relate.run, Program.element.run] created 1150 :=
    holds.recoversPrefix created_store guarded (Nat.zero_le _)
  obtain ⟨recovered, again, current, _, _⟩ := recovers.first (by decide +kernel) (by decide +kernel)
  have run : Run .created 0 created recovered :=
    .crashed (.wrote (.wrote .start Program.relate.run_guarded) Program.element.run_guarded)
      (Nat.zero_le _) again
  refine ⟨recovered, again, ?_, reached_integrity created_store ⟨created, opened_created, run⟩
    (.staged Program.element.run_guarded 3)⟩
  unfold begun
  rw [current]
  decide +kernel

/-- In every such view the incremental index answers every probe as a scan does. -/
theorem reached_exact (stored : files.Store superblock base records)
    (reached : Reached files database) (shows_ : database.Shows view) : view.Exact :=
  (reached.sound stored shows_).exact

omit [Crc32c] in
/-- The index of a writer over such a relation, which unsets the age again. -/
theorem reached_exact_created :
    let _ : Crc32c := castagnoli
    let age : Program Unit := .calls [.set (.element 2) 1 (.integer 30), .unset (.element 1) 1]
    let view := (age.run ((write Program.relate.run created).2.begun 2)).2.merged
    view.Exact ∧ view.propertyEqual 1 (.integer 30) = [.element 2] ∧
      view.elementsWithLabel 1 = [1] ∧ view.relationsWithType 1 = [1] ∧
      (view.relationIncidences 1).length = 2 := by
  intro _
  have run : Run .created 0 created (write Program.relate.run created).2 :=
    .wrote .start Program.relate.run_guarded
  exact ⟨reached_exact created_store ⟨created, opened_created, run⟩ (.staged (Program.run_guarded _) 2),
    by decide +kernel⟩

/-- A transaction that committed something published the watermark its writer ended with. -/
theorem HandsOut.committed {R : Type} {body : Mutation DbError Writer R} {published : Db} {value : R}
    {lsn : CommitSeq} {family : IdFamily} {id : UInt64} (handed : HandsOut database body family id)
    (sound : database.current.view.Sound)
    (written : write body database = (.ok (value, .committed lsn), published)) :
    id < published.current.overlay.next.get family := by
  obtain ⟨writer, begun, started, hands⟩ := handed
  obtain ⟨same, middle, again, finished⟩ := Mutation.bind_ok.mp written
  cases started.symm.trans again
  obtain ⟨transaction, _, rfl, rfl⟩ := beginWrite_ok started
  have below := (hands.between sound).2
  change finish (body (database.begun transaction)) _ = _ at finished
  rcases ran : body (database.begun transaction) with ⟨_ | result, last⟩
  · rw [ran] at finished
    cases finished
  rw [ran] at finished below
  obtain ⟨_, final, committed, returned⟩ := Mutation.bind_ok.mp finished
  obtain ⟨outcome, rfl⟩ := Prod.mk.inj returned
  rcases commit_ok committed with ⟨nothing, _⟩ | ⟨_, shown⟩
  · simp [nothing] at outcome
  · have overlay : final.current.overlay = last.delta.toOverlay :=
      congrArg LayeredState.overlay shown
    rwa [overlay]

/-- An id that a committed transaction handed out is never handed out again, whatever runs and
crashes afterwards, as long as the crashes keep what that commit appended. -/
theorem ids_never_reissued {R S : Type} (stored : files.Store superblock base records)
    (reached : Reached files database)
    {body : Mutation DbError Writer R} (guarded : Writer.Guarded body) {family : IdFamily}
    {id : UInt64} (handed : HandsOut database body family id) {value : R} {lsn : CommitSeq}
    {published later : Db}
    (written : write body database = (.ok (value, .committed lsn), published))
    (run : Run files published.log.length published later)
    {next : Mutation DbError Writer S} {other : UInt64} (again : HandsOut later next family other) :
    id < other := by
  obtain ⟨frames, holds⟩ := reached.holds stored
  have below := handed.committed holds.sound written
  obtain ⟨grown, committed⟩ := holds.grows guarded
  rw [written] at committed
  -- Every later log starts with the frames of the commit, so its watermark is not below.
  obtain ⟨more, held⟩ := run.holds stored committed (Nat.le_refl _)
  obtain ⟨earlier, same, rises⟩ := held.of_append
  rw [same.replays.unique committed.replays] at rises
  obtain ⟨writer, begun, started, hands⟩ := again
  obtain ⟨transaction, _, rfl, _⟩ := beginWrite_ok started
  have low := (hands.between held.sound).1
  exact UInt64.lt_of_lt_of_le below (UInt64.le_trans (rises family) low)

end Runs

section Created

local instance createdCrc32c : Crc32c := castagnoli

/-- Creates an element, and then gives up. -/
def Program.dropped : Program UInt64 :=
  .call .createElement fun _ => .ends (.error (.invalidStore "dropped"))

/-- The id of an element that was committed is not handed out again, after a transaction that was
rolled back and one whose frame was torn. -/
theorem ids_never_reissued_created :
    let published := (write Writer.createElement created).2
    ∃ later, Files.created.open
        ((write Writer.createElement (write Program.dropped.run published).2).2.log.take 350) =
          .ok later ∧
      HandsOut created Writer.createElement .element 1 ∧
      HandsOut later Writer.createElement .element 2 ∧ (1 : UInt64) < 2 := by
  intro published
  obtain ⟨_, holds⟩ := reached_created.holds created_store
  obtain ⟨_, grown⟩ := holds.grows Writer.createElement_guarded
  have guarded : ∀ body ∈ [Program.dropped.run, Writer.createElement], Writer.Guarded body := by
    simpa using ⟨Program.dropped.run_guarded, Writer.createElement_guarded⟩
  -- The frames end at 200 and 400, and the one that was rolled back left none.
  have recovers : RecoversPrefix .created [Program.dropped.run, Writer.createElement]
      (write Writer.createElement created).2 350 :=
    grown.recoversPrefix created_store guarded (by decide +kernel)
  obtain ⟨later, again, current, stamp, _⟩ := recovers.first (by decide +kernel) (by decide +kernel)
  have run : Run .created published.log.length published later :=
    .crashed (.wrote (.wrote .start Program.dropped.run_guarded) Writer.createElement_guarded)
      (by decide +kernel) again
  have first : HandsOut created Writer.createElement .element 1 :=
    ⟨_, _, rfl, _, _, _, .element, .refl, rfl, .refl⟩
  -- No transaction id that a frame carries is above the one that was burnt.
  have burnt : (write Program.dropped.run published).2.lastTransactionId = 2 := by decide +kernel
  rw [burnt] at stamp
  have fits : later.lastTransactionId.toNat + 1 < UInt64.size :=
    Nat.lt_of_le_of_lt (Nat.succ_le_succ (UInt64.le_iff_toNat_le.mp stamp)) (by decide)
  have second : HandsOut later Writer.createElement .element 2 := by
    refine ⟨later.begun (later.lastTransactionId + 1),
      { later with lastTransactionId := later.lastTransactionId + 1 }, ?_, Writer.createElement, _,
      _, .element, .refl, Prod.ext ?_ rfl, .refl⟩
    · unfold beginWrite checkedNext
      rw [if_pos fits]
      rfl
    · unfold begun
      rw [current]
      rfl
  exact ⟨later, again, first, second, ids_never_reissued created_store reached_created
    Writer.createElement_guarded first (Prod.ext rfl rfl) run second⟩

end Created

end Db

end Oxgraph
