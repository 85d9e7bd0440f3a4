import Oxgraph.Proofs.Db.Database.Calls
import Oxgraph.Proofs.Db.Database.Commit
import Oxgraph.Proofs.Db.Database.Settle

/-! A reconcile program reaches the state it asks for, and run again it does nothing. -/

namespace Oxgraph

open Mutation (bind_ok)

-- What keeps an answer.

variable {before after : Contents}

/-- An answer that is still present is still the answer when others have gone. -/
theorem Upsert.Answered.of_shrinks {call : Upsert} {catalog : Catalog} {subject : PropertySubject}
    (answered : call.Answered before catalog subject) (shrinks : after.Shrinks before)
    (present : after.Has subject) : call.Answered after catalog subject := by
  obtain ⟨key, id, covers, same, carried, minimal⟩ := answered
  refine ⟨key, id, covers, same, (shrinks.same present key).trans carried, ?_⟩
  -- A carrier that is left was one before, so the least stays the least.
  intro other carries
  exact minimal other (shrinks.property carries)

/-- An answer stays the answer while its identity key is left alone. -/
theorem Upsert.Answered.of_same {call : Upsert} {catalog : Catalog} {subject : PropertySubject}
    (answered : call.Answered before catalog subject)
    (same : ∀ key, catalog.Covers call.index key → ∀ probe,
      after.property probe key = before.property probe key) :
    call.Answered after catalog subject := by
  obtain ⟨key, id, covers, made, carried, minimal⟩ := answered
  refine ⟨key, id, covers, made, (same key covers _).trans carried, ?_⟩
  intro other carries
  exact minimal other ((same key covers _).symm.trans carries)

/-- What is not stale is not stale once subjects have gone. -/
theorem Contents.Shrinks.fresh {key : PropertyKeyId} {keep : List PropertyValue}
    (shrinks : after.Shrinks before) (fresh : ∀ subject, ¬ before.Stale key keep subject)
    (subject : PropertySubject) : ¬ after.Stale key keep subject := by
  rintro ⟨value, carried, unkept⟩
  exact fresh subject ⟨value, shrinks.property carried, unkept⟩

namespace Reconcile

variable {writer after : Writer}

-- The first run.

variable {sets : List PropertySet}

/-- Setting distinct slots leaves each of them as set, and every other key alone. -/
theorem sets_ok (sound : writer.merged.Sound)
    (done : (sets.forM fun set => Writer.setProperty set.subject set.key set.value) writer =
      (.ok (), after)) :
    after.merged.Sound ∧ after.merged.catalog = writer.merged.catalog ∧
      ((sets.map fun set => (set.subject, set.key)).Nodup → ∀ set ∈ sets,
        after.merged.contents.property set.subject set.key = some set.value) ∧
      ∀ key, (∀ set ∈ sets, set.key ≠ key) → ∀ subject,
        after.merged.contents.property subject key =
          writer.merged.contents.property subject key := by
  refine @Mutation.forM_ok DbError Writer PropertySet writer
    (fun done state => state.merged.Sound ∧ state.merged.catalog = writer.merged.catalog ∧
      ((sets.map fun set => (set.subject, set.key)).Nodup → ∀ set ∈ done,
        state.merged.contents.property set.subject set.key = some set.value) ∧
      ∀ key, (∀ set ∈ done, set.key ≠ key) → ∀ subject,
        state.merged.contents.property subject key =
          writer.merged.contents.property subject key) _ sets after ?_ ?_ done
  · rintro done item rest state state' split ⟨good, catalog, shown, frame⟩ ran
    -- The slot just set shows its value, and every other slot shows what it did.
    obtain ⟨sameCatalog, contents⟩ := Writer.setProperty_ok ran
    have kept := Writer.Guarded.advances (Writer.setProperty_guarded _ _ _) good ran
    refine ⟨kept.sound, sameCatalog.trans catalog, ?_, ?_⟩
    · intro once set member
      rw [contents]
      rcases List.mem_append.mp member with before | new
      · -- The slots are distinct, so this one overwrites none of those before it.
        have apart : ¬ (item.subject = set.subject ∧ item.key = set.key) := by
          rintro ⟨subject, key⟩
          rw [split, List.map_append, List.map_cons] at once
          have fresh := (List.nodup_append.mp once).2.2
          exact fresh _ (List.mem_map_of_mem before) _ List.mem_cons_self
            (Prod.ext subject.symm key.symm)
        exact (if_neg apart).trans (shown once set before)
      · cases List.mem_singleton.mp new
        exact if_pos ⟨rfl, rfl⟩
    · intro key others subject
      rw [contents]
      have apart : ¬ (item.subject = subject ∧ item.key = key) :=
        fun same => others item (List.mem_append_right _ List.mem_cons_self) same.2
      exact (if_neg apart).trans
        (frame key (fun set member => others set (List.mem_append_left _ member)) subject)
  · exact ⟨sound, rfl, fun _ _ member => (nomatch member), fun _ _ _ => rfl⟩

/-- Retaining only takes subjects away, and leaves none of the keys with a value not kept. -/
theorem retains_ok (sound : writer.merged.Sound) {retains : List Retain}
    (done : (retains.forM fun retain => Writer.retain retain.index retain.keep) writer =
      (.ok (), after)) :
    after.merged.Sound ∧ after.merged.catalog = writer.merged.catalog ∧
      after.merged.contents.Shrinks writer.merged.contents ∧
      ∀ retain ∈ retains, ∃ key, writer.merged.catalog.Covers retain.index key ∧
        ∀ subject, ¬ after.merged.contents.Stale key retain.keep subject := by
  refine @Mutation.forM_ok DbError Writer Retain writer
    (fun done state => state.merged.Sound ∧ state.merged.catalog = writer.merged.catalog ∧
      state.merged.contents.Shrinks writer.merged.contents ∧
      ∀ retain ∈ done, ∃ key, writer.merged.catalog.Covers retain.index key ∧
        ∀ subject, ¬ state.merged.contents.Stale key retain.keep subject) _ retains after ?_ ?_ done
  · rintro done item rest state state' _ ⟨good, catalog, shrinks, fresh⟩ ran
    obtain ⟨soundAfter, sameCatalog, taken, key, covers, none_left⟩ := Writer.retain_ok good ran
    refine ⟨soundAfter, sameCatalog.trans catalog, shrinks.trans taken, ?_⟩
    intro retain member
    rcases List.mem_append.mp member with before | new
    · -- What an earlier retain left none of does not come back when more is taken away.
      obtain ⟨other, covered, none_before⟩ := fresh retain before
      exact ⟨other, covered, taken.fresh none_before⟩
    · cases List.mem_singleton.mp new
      rw [catalog] at covers
      exact ⟨key, covers, none_left⟩
  · exact ⟨sound, rfl, .refl _, fun _ member => (nomatch member)⟩

/-- What follows an upsert of a well formed program is well formed. -/
theorem WellFormed.tail {call : Upsert} {next : PropertySubject → Reconcile}
    {subject : PropertySubject} {rest : List PropertySubject} {catalog : Catalog}
    (wellFormed : (upsert call next).WellFormed (subject :: rest) catalog) :
    (next subject).WellFormed rest catalog where
  once := wellFormed.once
  apart set member called listed :=
    wellFormed.apart set member called (List.mem_cons_of_mem _ listed)
  keeps retain member called listed :=
    wellFormed.keeps retain member called (List.mem_cons_of_mem _ listed)

variable {subjects : List PropertySubject}

/-- Once the schema is applied, a program leaves the catalog alone. -/
theorem run_catalog (program : Reconcile) (sound : writer.merged.Sound)
    (done : program.run writer = (.ok subjects, after)) :
    after.merged.catalog = writer.merged.catalog := by
  induction program generalizing writer subjects with
  | upsert call next ih =>
    obtain ⟨subject, middle, called, more⟩ := bind_ok.mp done
    obtain ⟨rest, last, ran, returned⟩ := bind_ok.mp more
    cases returned
    -- The call keeps the catalog, and so does the rest from the view it leaves.
    have reached := Writer.Guarded.advances call.run_guarded sound called
    exact (ih subject reached.sound ran).trans (call.run_ok sound called).1
  | settle sets retains =>
    obtain ⟨_, middle, setAll, more⟩ := bind_ok.mp done
    obtain ⟨_, last, retained, returned⟩ := bind_ok.mp more
    cases returned
    obtain ⟨good, catalog, _⟩ := sets_ok sound setAll
    exact (retains_ok good retained).2.1.trans catalog

/--
A program whose subjects are still there at its end has reached the state it asks for.

The induction is on the program. What it carries along is that an answer given before it is still
the answer after it, unless a set goes to its identity key or the subject is pruned.
-/
theorem run_ok (program : Reconcile) (sound : writer.merged.Sound)
    (done : program.run writer = (.ok subjects, after))
    (wellFormed : program.WellFormed subjects writer.merged.catalog)
    (present : program.Present subjects after.merged.contents) :
    program.Holds after.merged.contents writer.merged.catalog subjects ∧
      ∀ {asked : Upsert} {answer},
        asked.Answered writer.merged.contents writer.merged.catalog answer →
        after.merged.contents.Has answer →
        (∀ set ∈ program.sets subjects, ¬ writer.merged.catalog.Covers asked.index set.key) →
        asked.Answered after.merged.contents writer.merged.catalog answer := by
  induction program generalizing writer subjects with
  | upsert call next ih =>
    obtain ⟨subject, middle, called, more⟩ := bind_ok.mp done
    obtain ⟨rest, last, ran, returned⟩ := bind_ok.mp more
    cases returned
    obtain ⟨catalog, answered, keeps⟩ := call.run_ok sound called
    have reached := Writer.Guarded.advances call.run_guarded sound called
    have further := ih subject reached.sound ran (catalog ▸ wellFormed.tail)
      ⟨fun other member => present.1 other (List.mem_cons_of_mem _ member), present.2⟩
    rw [catalog] at further
    obtain ⟨holds, keepsOn⟩ := further
    refine ⟨⟨?_, holds⟩, ?_⟩
    · -- The call's own answer is one of those the rest of the program keeps.
      refine keepsOn answered (present.1 subject List.mem_cons_self) ?_
      intro set member
      exact wellFormed.apart set member call List.mem_cons_self
    · intro asked answer before still apart
      exact keepsOn (keeps before) still apart
  | settle sets retains =>
    obtain ⟨_, middle, setAll, more⟩ := bind_ok.mp done
    obtain ⟨_, last, retained, returned⟩ := bind_ok.mp more
    cases returned
    obtain ⟨good, catalog, shown, frame⟩ := sets_ok sound setAll
    obtain ⟨_, _, shrinks, fresh⟩ := retains_ok good retained
    rw [catalog] at fresh
    -- The retains only take subjects away, so a subject still there shows what the sets gave it.
    refine ⟨⟨rfl, ?_, fresh⟩, ?_⟩
    · intro set member
      exact (shrinks.same (present.2 set member) _).trans (shown wellFormed.once set member)
    · intro asked answer before still apart
      refine (before.of_same ?_).of_shrinks shrinks still
      intro key covers probe
      exact frame key (fun set member same => apart set member (same ▸ covers)) probe

-- The second run.

/-- Setting what is shown already does nothing. -/
theorem sets_unchanged (sound : writer.merged.Sound)
    (shown : ∀ set ∈ sets, writer.merged.contents.property set.subject set.key = some set.value) :
    (sets.forM fun set => Writer.setProperty set.subject set.key set.value) writer =
      (.ok (), writer) := by
  induction sets with
  | nil => rfl
  | cons set rest ih =>
    obtain ⟨own, others⟩ := List.forall_mem_cons.mp shown
    rw [List.forM]
    exact bind_ok.mpr ⟨(), writer, Writer.setProperty_unchanged sound own, ih others⟩

/-- Retaining where nothing is stale does nothing. -/
theorem retains_unchanged (sound : writer.merged.Sound) {retains : List Retain}
    (fresh : ∀ retain ∈ retains, ∃ key, writer.merged.catalog.Covers retain.index key ∧
      ∀ subject, ¬ writer.merged.contents.Stale key retain.keep subject) :
    (retains.forM fun retain => Writer.retain retain.index retain.keep) writer =
      (.ok (), writer) := by
  induction retains with
  | nil => rfl
  | cons retain rest ih =>
    obtain ⟨⟨key, covers, kept⟩, others⟩ := List.forall_mem_cons.mp fresh
    rw [List.forM]
    exact bind_ok.mpr
      ⟨(), writer, Writer.retain_unchanged sound covers kept, ih others⟩

/-- Where the state a program asks for is there already, the program does nothing. -/
theorem run_holds (program : Reconcile) (sound : writer.merged.Sound)
    (holds : program.Holds writer.merged.contents writer.merged.catalog subjects) :
    program.run writer = (.ok subjects, writer) := by
  induction program generalizing subjects with
  | upsert call next ih =>
    cases subjects with
    | nil => exact holds.elim
    | cons subject rest =>
      obtain ⟨answered, more⟩ := holds
      -- The answer is returned without a change, so the rest runs on the same writer.
      exact bind_ok.mpr ⟨subject, writer, call.run_answered sound answered,
        bind_ok.mpr ⟨rest, writer, ih subject more, rfl⟩⟩
  | settle sets retains =>
    obtain ⟨rfl, shown, fresh⟩ := holds
    exact bind_ok.mpr ⟨(), writer, sets_unchanged sound shown,
      bind_ok.mpr ⟨(), writer, retains_unchanged sound fresh, rfl⟩⟩

theorem sets_guarded (sets : List PropertySet) : Writer.Guarded
    (sets.forM fun set => Writer.setProperty set.subject set.key set.value) :=
  fun _ => .forM sets fun _ _ => Writer.setProperty_guarded _ _ _

theorem retains_guarded (retains : List Retain) : Writer.Guarded
    (retains.forM fun retain => Writer.retain retain.index retain.keep) :=
  fun _ => .forM retains fun _ _ => Writer.retain_guarded _ _

/-- A program runs by guarded steps. -/
theorem run_guarded (program : Reconcile) : Writer.Guarded program.run := by
  induction program with
  | upsert call next ih =>
    exact Writer.bind_guarded call.run_guarded fun subject =>
      Writer.bind_guarded (ih subject) fun _ => Writer.pure_guarded _
  | settle sets retains =>
    exact Writer.bind_guarded (sets_guarded sets) fun _ =>
      Writer.bind_guarded (retains_guarded retains) fun _ => Writer.pure_guarded _

-- What a run that logs nothing relies on.

/-- Sets that log nothing found each of their subjects present. -/
theorem sets_present (sound : writer.merged.Sound)
    (done : (sets.forM fun set => Writer.setProperty set.subject set.key set.value) writer =
      (.ok (), after)) (nothing : after.delta.log.ops = []) :
    ∀ set ∈ sets, writer.merged.contents.Has set.subject := by
  induction sets generalizing writer with
  | nil => exact fun _ member => (nomatch member)
  | cons set rest ih =>
    rw [List.forM] at done
    obtain ⟨_, middle, one, others⟩ := bind_ok.mp done
    have guarded := Writer.setProperty_guarded set.subject set.key set.value
    have kept := Writer.Guarded.advances guarded sound one
    -- The later sets log nothing, so neither did this one, and it moved nothing.
    obtain ⟨quiet, _, _⟩ :=
      Writer.Guarded.unlogged (sets_guarded rest) kept.sound others nothing
    obtain ⟨_, same, _⟩ := Writer.Guarded.unlogged guarded sound one quiet
    have there := ih kept.sound others
    rw [same] at there
    refine List.forall_mem_cons.mpr ⟨?_, there⟩
    -- The property is shown after the set, so its subject is there, and was there before.
    obtain ⟨_, contents⟩ := Writer.setProperty_ok one
    have shown : middle.merged.contents.property set.subject set.key = some set.value := by
      rw [contents]
      exact if_pos ⟨rfl, rfl⟩
    exact same ▸ kept.sound.coherent.anchored shown

/-- A program that logs nothing found each of its subjects present. -/
theorem run_present (program : Reconcile) (sound : writer.merged.Sound)
    (done : program.run writer = (.ok subjects, after)) (nothing : after.delta.log.ops = []) :
    program.Present subjects writer.merged.contents := by
  induction program generalizing writer subjects with
  | upsert call next ih =>
    obtain ⟨subject, middle, called, more⟩ := bind_ok.mp done
    obtain ⟨rest, last, ran, returned⟩ := bind_ok.mp more
    cases returned
    have kept := Writer.Guarded.advances call.run_guarded sound called
    obtain ⟨quiet, _, _⟩ :=
      Writer.Guarded.unlogged (next subject).run_guarded kept.sound ran nothing
    -- Neither the rest of the program nor its first call logged anything.
    obtain ⟨_, same, _⟩ := Writer.Guarded.unlogged call.run_guarded sound called quiet
    obtain ⟨others, sets⟩ := ih subject kept.sound ran
    rw [same] at others sets
    refine ⟨List.forall_mem_cons.mpr ⟨?_, others⟩, sets⟩
    obtain ⟨_, ⟨key, id, _, _, carried, _⟩, _⟩ := call.run_ok sound called
    exact same ▸ kept.sound.coherent.anchored carried
  | settle sets retains =>
    obtain ⟨_, middle, setAll, more⟩ := bind_ok.mp done
    obtain ⟨_, last, retained, returned⟩ := bind_ok.mp more
    cases returned
    obtain ⟨good, _⟩ := sets_ok sound setAll
    obtain ⟨quiet, _, _⟩ := Writer.Guarded.unlogged (retains_guarded retains) good retained nothing
    exact ⟨fun _ member => (nomatch member), sets_present sound setAll quiet⟩

end Reconcile

namespace ReconcileProgram

variable {writer after : Writer}

theorem run_guarded (program : ReconcileProgram) : Writer.Guarded program.run :=
  Writer.bind_guarded (Writer.applySchema_guarded _) fun bound =>
    Writer.bind_guarded (program.body bound).run_guarded fun _ => Writer.pure_guarded _

/-- Run again wherever it has left the catalog and the contents, a program does nothing. -/
theorem run_again (program : ReconcileProgram) (sound : writer.merged.Sound) {bound : Bound}
    {subjects : List PropertySubject}
    (done : program.run writer = (.ok (bound, subjects), after))
    (wellFormed : (program.body bound).WellFormed subjects after.merged.catalog)
    (present : (program.body bound).Present subjects after.merged.contents) {later : Writer}
    (good : later.merged.Sound) (contents : later.merged.contents = after.merged.contents)
    (catalog : later.merged.catalog = after.merged.catalog) :
    program.run later = (.ok (bound, subjects), later) := by
  obtain ⟨handles, middle, applied, more⟩ := bind_ok.mp done
  obtain ⟨answers, last, ran, returned⟩ := bind_ok.mp more
  cases returned
  have advances := Writer.Guarded.advances (Writer.applySchema_guarded _) sound applied
  -- The catalog only changes while the schema is applied.
  have same := (program.body bound).run_catalog advances.sound ran
  rw [same] at wellFormed catalog
  obtain ⟨holds, _⟩ := (program.body bound).run_ok advances.sound ran wellFormed present
  -- The later catalog is the one the schema was applied to, so applying it again settles.
  have beyond : later.Beyond middle := by
    unfold Writer.Beyond
    rw [catalog]
    exact .refl _
  have settled := Writer.applySchema_settles program.schema _ _ _ sound applied later beyond
  have unchanged := (program.body bound).run_holds good (by rwa [contents, catalog])
  exact bind_ok.mpr ⟨bound, later, settled,
    bind_ok.mpr ⟨subjects, later, unchanged, rfl⟩⟩

/-- A program that logs nothing found each of its subjects present. -/
theorem run_present (program : ReconcileProgram) (sound : writer.merged.Sound) {bound : Bound}
    (done : program.run writer = (.ok (bound, subjects), after))
    (nothing : after.delta.log.ops = []) :
    (program.body bound).Present subjects after.merged.contents := by
  obtain ⟨_, same, _⟩ := Writer.Guarded.unlogged program.run_guarded sound done nothing
  obtain ⟨handles, middle, applied, more⟩ := bind_ok.mp done
  obtain ⟨answers, last, ran, returned⟩ := bind_ok.mp more
  cases returned
  have advances := Writer.Guarded.advances (Writer.applySchema_guarded _) sound applied
  have guarded := (program.body bound).run_guarded
  obtain ⟨_, unmoved, _⟩ := Writer.Guarded.unlogged guarded advances.sound ran nothing
  rw [unmoved]
  exact (program.body bound).run_present advances.sound ran nothing

end ReconcileProgram

section

variable [Crc32c] {database reached : Db} {program : ReconcileProgram} {bound : Bound}
  {subjects : List PropertySubject} {outcome : CommitOutcome}

/--
A well formed reconcile program that commits reruns exactly when its subjects are still visible.

Run again on any handle that shows what the first run left, it returns the same handles and ids,
commits empty, and changes nothing but the transaction id it burns, if and only if every subject
it upserted or set is there.
-/
theorem reconcile_reruns (sound : database.current.view.Sound)
    (committed : database.write program.run = (.ok ((bound, subjects), outcome), reached))
    (wellFormed : (program.body bound).WellFormed subjects reached.current.view.catalog) :
    reached.current.view.Sound ∧ ∀ {again : Db} {transaction : TransactionId},
      again.current.view.Sound → again.Agrees reached →
        checkedNext again.lastTransactionId = some transaction →
          (again.write program.run =
            (.ok ((bound, subjects), .empty), { again with lastTransactionId := transaction }) ↔
            (program.body bound).Present subjects reached.current.view.contents) := by
  obtain ⟨good, first, last, ran, _, contents, catalog⟩ :=
    Db.write_shows program.run_guarded sound committed
  refine ⟨good, ?_⟩
  intro again transaction soundAgain agrees fits
  constructor
  · intro rerun
    -- A second run that logs nothing has moved nothing, so what it found is what was there.
    obtain ⟨_, next, final, ranAgain, quiet, shown, _⟩ :=
      Db.write_shows program.run_guarded soundAgain rerun
    have began : (again.begun next).merged.Sound := soundAgain
    have present := program.run_present began ranAgain (quiet rfl)
    rw [← shown] at present
    exact agrees.contents ▸ present
  · intro present
    rw [catalog] at wellFormed
    rw [contents] at present
    -- The second writer starts from what the first one left.
    refine Db.write_unchanged fits (program.run_again ?_ ran wellFormed present ?_ ?_ ?_)
    · exact sound
    · exact soundAgain
    · exact agrees.contents.trans contents
    · exact agrees.catalog.trans catalog

end

-- Programs over named elements.

/-- The handle of a store that has just been created. -/
def createdDb : Db := ⟨⟨0, 0, .empty .initial .empty, .empty⟩, 0, 0, []⟩

/-- Two indexes over the names and the aliases of elements, which also have a size. -/
def namesSchema : Schema where
  roles := []
  labels := []
  relationTypes := []
  keys := [("name", .element, .text), ("alias", .element, .text), ("size", .element, .integer)]
  equalityIndexes := [("by_name", "name"), ("by_alias", "alias")]
  graphProjections := []
  hypergraphProjections := []

/-- Upserts one name, then sets and retains. -/
def upsertName (name : String) (sets : List PropertySet) (retains : List Retain) :
    ReconcileProgram where
  schema := namesSchema
  body _ := .upsert (.element 1 (.text name)) fun _ => .settle sets retains

/-- A store with one element, named "a" and also known as "x". -/
def namedDb [Crc32c] : Db :=
  (createdDb.write (upsertName "a" [⟨.element 1, 2, .text "x"⟩] []).run).2

theorem namedDb_sound [Crc32c] : namedDb.current.view.Sound :=
  Db.write_sound (upsertName _ _ _).run_guarded LayeredState.sound_empty

/-- Where an index is registered, it covers the key of its definition. -/
theorem Catalog.covers_iff {catalog : Catalog} {index : IndexId} {entry : IndexEntry}
    (found : catalog.index index = some entry) {key : PropertyKeyId} :
    catalog.Covers index key ↔ entry.definition = .propertyEquality key := by
  constructor
  · rintro ⟨other, present, covers⟩
    cases found.symm.trans present
    exact covers
  · exact fun covers => ⟨entry, found, covers⟩

/-- A program that upserts a name is well formed when it sets no name and keeps its own. -/
theorem upsertName_wellFormed {name : String} {sets : List PropertySet} {retains : List Retain}
    {bound : Bound} {subject : PropertySubject} {catalog : Catalog}
    (byName : catalog.index 1 = some ⟨1, "by_name", .propertyEquality 1⟩)
    (once : (sets.map fun set => (set.subject, set.key)).Nodup) (apart : ∀ set ∈ sets, set.key ≠ 1)
    (keeps : ∀ retain ∈ retains, catalog.Covers retain.index 1 → .text name ∈ retain.keep) :
    ((upsertName name sets retains).body bound).WellFormed [subject] catalog where
  once := once
  apart set member call called covers := by
    cases List.mem_singleton.mp called
    have covered := (Catalog.covers_iff byName).mp covers
    exact apart set member (IndexDefinition.propertyEquality.inj covered).symm
  keeps retain member call called key covers := by
    cases List.mem_singleton.mp called
    cases (Catalog.covers_iff byName).mp covers
    exact keeps retain member

/-- Upserting "b", giving it a size and keeping it alone is done after one run. -/
theorem reconcile_reruns_named : letI := castagnoli
    ∃ bound reached, namedDb.write (upsertName "b" [⟨.element 2, 3, .integer 3⟩]
        [⟨1, [.text "b"]⟩]).run = (.ok ((bound, [.element 2]), .committed 2), reached) ∧
      reached.write (upsertName "b" [⟨.element 2, 3, .integer 3⟩] [⟨1, [.text "b"]⟩]).run =
        (.ok ((bound, [.element 2]), .empty), { reached with lastTransactionId := 3 }) := by
  let := castagnoli
  have answers : (namedDb.write (upsertName "b" [⟨.element 2, 3, .integer 3⟩]
      [⟨1, [.text "b"]⟩]).run).1.toOption.map (fun answer => (answer.1.2, answer.2)) =
        some ([.element 2], .committed 2) := by decide +kernel
  have reaches : (namedDb.write (upsertName "b" [⟨.element 2, 3, .integer 3⟩]
      [⟨1, [.text "b"]⟩]).run).2.lastTransactionId = 2 := by decide +kernel
  have byName : (namedDb.write (upsertName "b" [⟨.element 2, 3, .integer 3⟩]
      [⟨1, [.text "b"]⟩]).run).2.current.view.catalog.index 1 =
        some ⟨1, "by_name", .propertyEquality 1⟩ := by decide +kernel
  have there : (namedDb.write (upsertName "b" [⟨.element 2, 3, .integer 3⟩]
      [⟨1, [.text "b"]⟩]).run).2.current.view.containsElement 2 = true := by decide +kernel
  rcases first : namedDb.write (upsertName "b" [⟨.element 2, 3, .integer 3⟩]
      [⟨1, [.text "b"]⟩]).run with ⟨_ | ⟨⟨bound, subjects⟩, outcome⟩, reached⟩
  · rw [first] at answers
    cases answers
  · rw [first] at answers reaches byName there
    cases answers
    have wellFormed := @upsertName_wellFormed "b" [⟨.element 2, 3, .integer 3⟩]
      [⟨1, [.text "b"]⟩] bound (.element 2) _ byName (by decide) (by simp) (by simp)
    obtain ⟨sound, reruns⟩ := reconcile_reruns namedDb_sound first wellFormed
    refine ⟨bound, reached, rfl, (reruns sound ⟨rfl, rfl⟩ (by rw [reaches]; rfl)).mpr ⟨?_, ?_⟩⟩
    · exact fun subject member => List.mem_singleton.mp member ▸ there
    · exact fun set member => (List.mem_singleton.mp member).symm ▸ there

-- Programs that differ when they are run again.

/-- A program whose second run answers otherwise does not rerun. -/
theorem ReconcileProgram.not_reruns [Crc32c] {program : ReconcileProgram} {database : Db}
    {subjects : List PropertySubject} {outcome : CommitOutcome}
    (first : (database.write program.run).1.toOption.map (fun answer => (answer.1.2, answer.2)) =
      some (subjects, outcome))
    (wellFormed : ∀ bound, (program.body bound).WellFormed subjects
      (database.write program.run).2.current.view.catalog)
    (second : ((database.write program.run).2.write program.run).1.toOption.map
      (fun answer => (answer.1.2, answer.2)) ≠ some (subjects, .empty)) :
    ¬ program.Reruns database := by
  intro reruns
  rcases ran : database.write program.run with ⟨_ | ⟨⟨bound, others⟩, ended⟩, reached⟩
  · rw [ran] at first
    cases first
  · rw [ran] at first wellFormed second
    cases first
    obtain ⟨transaction, again⟩ := reruns bound _ _ reached ran (wellFormed bound)
    rw [again] at second
    exact second rfl

/--
A well formed program may differ on its second run, which no second run undoes.

A set on an element that the retain pruned is refused; an upserted element that a retain over
another index pruned is minted anew; and no transaction begins once the ids are used up.
-/
theorem reconcile_reruns_differ : letI := castagnoli
    ¬ (upsertName "b" [⟨.element 1, 3, .integer 3⟩] [⟨1, [.text "b"]⟩]).Reruns namedDb ∧
      ¬ (upsertName "a" [] [⟨1, [.text "a"]⟩, ⟨2, []⟩]).Reruns namedDb ∧
      ¬ (upsertName "a" [] []).Reruns
        { createdDb with lastTransactionId := 18446744073709551614 } := by
  let := castagnoli
  refine ⟨?_, ?_, ?_⟩
  · refine @ReconcileProgram.not_reruns _ _ _ [.element 2] (.committed 2) (by decide +kernel) ?_
      (by decide +kernel)
    exact fun bound => upsertName_wellFormed (by decide +kernel) (by decide) (by simp) (by simp)
  · refine @ReconcileProgram.not_reruns _ _ _ [.element 1] (.committed 2) (by decide +kernel) ?_
      (by decide +kernel)
    refine fun bound => upsertName_wellFormed (by decide +kernel) (by decide) (by simp) ?_
    -- The second index covers the aliases, so it need not keep the name.
    intro retain member covers
    rcases List.mem_cons.mp member with rfl | member
    · simp
    · cases List.mem_singleton.mp member
      have covered := (@Catalog.covers_iff _ 2 ⟨2, "by_alias", .propertyEquality 2⟩
        (by decide +kernel) 1).mp covers
      cases IndexDefinition.propertyEquality.inj covered
  · refine @ReconcileProgram.not_reruns _ _ _ [.element 1] (.committed 1) (by decide +kernel) ?_
      (by decide +kernel)
    exact fun bound => upsertName_wellFormed (by decide +kernel) (by decide) (by simp) (by simp)

end Oxgraph
