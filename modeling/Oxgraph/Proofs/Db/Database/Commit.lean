import Oxgraph.Db.Database.Commit
import Oxgraph.Proofs.Db.Overlay.Replay
import Oxgraph.Proofs.Db.Database.Integrity

/-! What a write publishes: the view its writer reached, and nothing when it logged nothing. -/

namespace Oxgraph

/-- A delta that has logged no op had logged none before, and still holds the data it had then. -/
theorem DeltaStep.unlogged {base : BaseRecords} {allowed : Change → LayeredState → Prop}
    {before after : WriteOverlay}
    (steps : Relation.ReflTransGen (DeltaStep base allowed) before after)
    (nothing : after.log.ops = []) :
    before.log.ops = [] ∧ ∃ next, after.toOverlay = before.toOverlay.setNextIds next := by
  -- Every change that is made is recorded.
  have recorded (change : Change) (log : MutationLog) : (change.record log).ops ≠ [] := by
    obtain ⟨op, interned, appended, _⟩ := replays_record change log
    rw [appended]
    exact List.append_ne_nil_of_right_ne_nil _ (by simp)
  induction steps with
  | refl => exact ⟨nothing, before.next, rfl⟩
  | @tail middle last prior step ih =>
    cases step with
    | create change | mutate change => exact absurd nothing (recorded change _)
    | @burn family drawn fits interned =>
      obtain ⟨none_before, next, same⟩ := ih nothing
      have burnt : middle.toOverlay.setNextIds (middle.next.set family drawn) =
          before.toOverlay.setNextIds (middle.next.set family drawn) := by
        rw [same]
        rfl
      exact ⟨none_before, _, burnt⟩

/-- A guarded mutator that leaves nothing logged has moved neither the contents nor the catalog. -/
theorem Writer.Guarded.unlogged {T : Type} {mutator : Mutation DbError Writer T} {value : T}
    {writer after : Writer} (guarded : Guarded mutator) (sound : writer.merged.Sound)
    (done : mutator writer = (.ok value, after)) (nothing : after.delta.log.ops = []) :
    writer.delta.log.ops = [] ∧ after.merged.contents = writer.merged.contents ∧
      after.merged.catalog = writer.merged.catalog := by
  have steps := guarded writer
  unfold Mutation.Steps at steps
  rw [done] at steps
  -- No step of a writer moves its parent, so the base is the one it started over.
  have base : after.base = writer.base :=
    congrArg Snapshot.baseRecords (Writer.Step.parent_eq steps).1
  obtain ⟨none_before, next, overlay⟩ :=
    DeltaStep.unlogged (Writer.Step.known_steps steps sound.coherent) nothing
  have shown : after.merged = ⟨writer.base, writer.delta.toOverlay.setNextIds next⟩ := by
    unfold Writer.merged
    rw [base, overlay]
  rw [shown]
  exact ⟨none_before, rfl, rfl⟩

namespace Db

/-- The writer that a transaction starts with. -/
def begun (database : Db) (transaction : TransactionId) : Writer :=
  ⟨database.current, .fromOverlay database.current.overlay, transaction⟩

variable [Crc32c] {database reached : Db} {R : Type} {body : Mutation DbError Writer R} {value : R}
  {outcome : CommitOutcome}

omit [Crc32c] in
/-- A transaction that begins has burnt its id, and its writer starts from the current snapshot. -/
theorem beginWrite_ok {writer : Writer} (started : beginWrite database = (.ok writer, reached)) :
    ∃ transaction, database.lastTransactionId ≤ transaction ∧ writer = database.begun transaction ∧
      reached = { database with lastTransactionId := transaction } := by
  unfold beginWrite at started
  split at started
  · cases started
  · rename_i drawn
    cases started
    have grown := toNat_of_checkedNext drawn
    exact ⟨_, UInt64.le_iff_toNat_le.mpr (by omega), rfl, rfl⟩

/-- A commit that succeeds had nothing to commit, or publishes what the writer shows. -/
theorem commit_ok {writer : Writer} {lsn : CommitSeq}
    (committed : commit writer database = (.ok lsn, reached)) :
    (writer.delta.isEmpty = true ∧ reached.current = database.current) ∨
      (writer.delta.isEmpty = false ∧ reached.current.view = writer.merged) := by
  unfold commit at committed
  split at committed
  · rename_i nothing
    cases committed
    exact .inl ⟨nothing, rfl⟩
  rename_i something
  split at committed
  · cases committed
  simp only at committed
  split at committed
  · cases committed
  · cases committed
    exact .inr ⟨Bool.eq_false_of_not_eq_true something, rfl⟩

/-- A write that succeeds ran its body; it is empty when that logged nothing, else it shows it. -/
theorem write_ok (written : write body database = (.ok (value, outcome), reached)) :
    ∃ transaction last, body (database.begun transaction) = (.ok value, last) ∧
      ((outcome = .empty ∧ last.delta.log.ops = [] ∧ reached.current = database.current) ∨
        (outcome ≠ .empty ∧ reached.current.view = last.merged)) := by
  obtain ⟨writer, middle, started, finished⟩ := Mutation.bind_ok.mp written
  obtain ⟨transaction, _, rfl, rfl⟩ := beginWrite_ok started
  change finish (body (database.begun transaction)) _ = _ at finished
  rcases ran : body (database.begun transaction) with ⟨_ | result, last⟩
  · rw [ran] at finished
    cases finished
  · rw [ran] at finished
    obtain ⟨lsn, final, committed, returned⟩ := Mutation.bind_ok.mp finished
    cases returned
    refine ⟨transaction, last, ran, ?_⟩
    -- The outcome reports whether the writer was dirty before the commit.
    rcases commit_ok committed with ⟨nothing, same⟩ | ⟨something, published⟩
    · exact .inl ⟨if_neg (by simp [nothing]), List.isEmpty_iff.mp nothing, same⟩
    · refine .inr ⟨?_, published⟩
      rw [if_pos (by simp [something])]
      exact fun never => nomatch never

/-- A guarded write from a sound view shows the contents and the catalog its body reached. -/
theorem write_shows (guarded : Writer.Guarded body) (sound : database.current.view.Sound)
    (written : write body database = (.ok (value, outcome), reached)) :
    reached.current.view.Sound ∧ ∃ transaction last,
      body (database.begun transaction) = (.ok value, last) ∧
        (outcome = .empty → last.delta.log.ops = []) ∧
        reached.current.view.contents = last.merged.contents ∧
        reached.current.view.catalog = last.merged.catalog := by
  obtain ⟨transaction, last, ran, ⟨_, nothing, same⟩ | ⟨dirty, published⟩⟩ := write_ok written
  · -- Nothing was logged, so the writer still shows its parent's view.
    have began : (database.begun transaction).merged.Sound := sound
    obtain ⟨_, contents, catalog⟩ := Writer.Guarded.unlogged guarded began ran nothing
    refine ⟨same ▸ sound, transaction, last, ran, fun _ => nothing, ?_, ?_⟩
    · rw [same, contents]
      rfl
    · rw [same, catalog]
      rfl
  · have steps := guarded (database.begun transaction)
    unfold Mutation.Steps at steps
    rw [ran] at steps
    refine ⟨published ▸ Writer.Step.sound steps sound, transaction, last, ran,
      fun clean => absurd clean dirty, ?_, ?_⟩
    · rw [published]
    · rw [published]

/-- A commit that fails has published nothing and appended nothing. -/
theorem commit_error {writer : Writer} {error : DbError}
    (failed : commit writer database = (.error error, reached)) : reached = database := by
  unfold commit at failed
  split at failed
  · cases failed
  split at failed
  · cases failed
    rfl
  simp only at failed
  split at failed
  · cases failed
    rfl
  · cases failed

/-- A write that fails is rolled back: all it leaves is a burnt transaction id. -/
theorem write_error {error : DbError} (failed : write body database = (.error error, reached)) :
    ∃ transaction, database.lastTransactionId ≤ transaction ∧
      reached = { database with lastTransactionId := transaction } := by
  rcases Mutation.bind_error.mp failed with exhausted | ⟨writer, middle, started, finished⟩
  · unfold beginWrite at exhausted
    split at exhausted
    · -- Out of transaction ids, not even an id is burnt.
      cases exhausted
      exact ⟨_, UInt64.le_refl _, rfl⟩
    · cases exhausted
  obtain ⟨transaction, later, rfl, rfl⟩ := beginWrite_ok started
  refine ⟨transaction, later, ?_⟩
  change finish (body (database.begun transaction)) _ = _ at finished
  rcases ran : body (database.begun transaction) with ⟨_ | result, last⟩
  · rw [ran] at finished
    cases finished
    rfl
  · rw [ran] at finished
    -- The body returned, so what failed is the commit.
    rcases Mutation.bind_error.mp finished with refused | ⟨_, _, _, returned⟩
    · exact commit_error refused
    · cases returned

/-- Every guarded write keeps the visible snapshot sound, whether it commits or not. -/
theorem write_sound (guarded : Writer.Guarded body) (sound : database.current.view.Sound) :
    (write body database).2.current.view.Sound := by
  rcases result : write body database with ⟨_ | ⟨value, outcome⟩, reached⟩
  · obtain ⟨_, _, rfl⟩ := write_error result
    exact sound
  · exact (write_shows guarded sound result).1

/-- A write whose body changes nothing is empty, and only burns its transaction id. -/
theorem write_unchanged {transaction : TransactionId}
    (fits : checkedNext database.lastTransactionId = some transaction)
    (unchanged : body (database.begun transaction) = (.ok value, database.begun transaction)) :
    write body database =
      (.ok (value, .empty), { database with lastTransactionId := transaction }) := by
  refine Mutation.bind_ok.mpr ⟨database.begun transaction,
    { database with lastTransactionId := transaction }, ?_, ?_⟩
  · unfold beginWrite
    rw [fits]
    rfl
  · rw [unchanged]
    rfl

end Db

end Oxgraph
