import Oxgraph.Db.Backing
import Oxgraph.Lib.Result

/-! A base index that was accepted is read without a fallback, whatever its bytes say. -/

namespace Oxgraph

/-- The words of a run that was sliced are as many as its length says. -/
theorem length_of_slicePool {pool run : List UInt64} {offset len : UInt64}
    (sliced : slicePool pool offset len = some run) : run.length = len.toNat := by
  unfold slicePool checkedAdd at sliced
  split at sliced
  · cases sliced
  · rename_i stop sum
    split at sum <;> cases sum
    unfold sliceOf at sliced
    split at sliced <;> cases sliced
    simp only [List.length_take, List.length_drop]
    omega

/-- The index of a base that attaches, whatever its bytes, was accepted. -/
theorem attachView_accepts [Crc32c] {bytes : Bytes} {view : BaseView}
    (attached : attachView bytes = .ok view) :
    ∃ index, BorrowedBaseIndex.fromSections index = .ok view.index := by
  -- The index is one of the parts the view is put together from.
  simp only [attachView, bind_eq_ok] at attached
  obtain ⟨snapshot, _, headers, _, attached⟩ := attached
  split at attached
  · cases attached
  split at attached
  · cases attached
  simp only [bind_eq_ok] at attached
  obtain ⟨_, _, _, _, _, _, _, _, _, _, index, borrowed, _, _, _, _, _, _, _, _, _, _, _, _, same⟩ :=
    attached
  cases same
  simp only [attachIndex, bind_eq_ok] at borrowed
  obtain ⟨_, _, _, _, _, _, _, _, _, _, _, _, accepted⟩ := borrowed
  exact ⟨_, mapError_eq_ok.mp accepted⟩

namespace BorrowedBaseIndex

/-- A lookup in a simple directory gives no run only when its search finds no entry. -/
def Answers (dir : List PostingDirEntry) (pool : List UInt64) : Prop :=
  ∀ key, simpleLookup dir pool key = none →
    binarySearchBy dir (fun entry => compare entry.key key) = none

/-- The entries of a key that a scan passes, from the key's first on. -/
def scanned (index : BorrowedBaseIndex) (key : PropertyKeyId) : List EqualityDirEntry :=
  (index.equalityDir.drop (index.keyLowerBound key)).takeWhile fun entry => entry.keyId = key

/-- A posting of a key is that of an entry: its value, and the subjects of its run. -/
def Posts (index : BorrowedBaseIndex) (key : PropertyKeyId) (entry : EqualityDirEntry)
    (posting : PropertyValue × List PropertySubject) : Prop :=
  equalityEntryKey entry index.equalityText = .ok (key, posting.1) ∧
    posting.2 = index.decodeSubjects entry

/-- No lookup reads a run as empty, drops a subject, or passes over an entry it cannot decode. -/
structure Served (index : BorrowedBaseIndex) : Prop where
  label : Answers index.labelDir index.labelPool
  relationType : Answers index.relationTypeDir index.relationTypePool
  elementIncidence : Answers index.elementIncidenceDir index.elementIncidencePool
  relationIncidence : Answers index.relationIncidenceDir index.relationIncidencePool
  -- Every equality entry has a key, which is what a search compares and a range scans.
  keyed : ∀ entry ∈ index.equalityDir, ∃ key, equalityEntryKey entry index.equalityText = .ok key
  -- Every equality posting lists a subject for each pair of words of its run.
  subjects : ∀ entry ∈ index.equalityDir,
    2 * (index.decodeSubjects entry).length = entry.membersLen.toNat
  -- The postings of a key are those of all its entries, one by one.
  postings : ∀ key, List.Forall₂ (index.Posts key) (index.scanned key) (index.keyPostings key)
  -- A range lists those of them that are in it, up to the first that is above it.
  range : ∀ key min max, index.rangePostings key min max =
    (((index.keyPostings key).takeWhile fun posting =>
        compare posting.1 min = .lt ∨ compare posting.1 max ≠ .gt).filter fun posting =>
      compare posting.1 min ≠ .lt).map fun posting => ((key, posting.1), posting.2)

/-- A directory whose runs all lie in its pool answers every lookup. -/
theorem validateSimpleDir_answers {dir : List PostingDirEntry} {pool : List UInt64} {label : String}
    (valid : validateSimpleDir dir pool label = .ok ()) : Answers dir pool := by
  intro key missed
  cases search : binarySearchBy dir fun entry => compare entry.key key with
  | none => rfl
  | some index =>
    obtain ⟨entry, present⟩ := binarySearchBy_found search
    have checked := forM_eq_ok.mp valid entry (List.mem_of_getElem? present)
    simp only [simpleLookup, search, present] at missed
    simp [missed] at checked

/-- Subject words that all decode give one subject for each pair. -/
theorem length_decoded {run : List UInt64} (even : run.length % 2 = 0)
    (valid : (wordPairs run).forM validateSubjectPair = .ok ()) :
    2 * ((wordPairs run).filterMap decodeSubjectWords).length = run.length := by
  induction run using wordPairs.induct with
  | case1 kind id rest ih =>
    obtain ⟨first, others⟩ := List.forall_mem_cons.mp (forM_eq_ok.mp valid)
    have decoded : ∃ subject, decodeSubjectWords (kind, id) = some subject := by
      unfold validateSubjectPair at first
      unfold decodeSubjectWords
      split at first
      · cases first
      · rename_i small
        rw [if_pos (Nat.lt_of_not_le small)]
        cases found : decodeSubject kind.toUInt32 id with
        | none => simp [found] at first
        | some subject => exact ⟨subject, rfl⟩
    obtain ⟨subject, decoded⟩ := decoded
    have rest := ih (by simp at even; omega) (forM_eq_ok.mpr others)
    rw [wordPairs, List.filterMap_cons_some decoded, List.length_cons, List.length_cons,
      List.length_cons]
    omega
  | case2 run short =>
    rcases run with _ | ⟨first, _ | ⟨second, rest⟩⟩
    · rfl
    · simp at even
    · exact absurd rfl (short first second rest)

/-- The key of an equality entry is the one it records. -/
theorem fst_of_equalityEntryKey {entry : EqualityDirEntry} {text : Bytes} {key : EqualityKey}
    (decoded : equalityEntryKey entry text = .ok key) : key.1 = entry.keyId := by
  unfold equalityEntryKey at decoded
  repeat' split at decoded
  all_goals cases decoded
  all_goals rfl

/-- A scan over entries that all have keys posts each entry of its key, and skips none. -/
theorem scanKey_posts {index : BorrowedBaseIndex} {key : PropertyKeyId}
    {entries : List EqualityDirEntry}
    (keyed : ∀ entry ∈ entries, ∃ key, equalityEntryKey entry index.equalityText = .ok key) :
    List.Forall₂ (index.Posts key) (entries.takeWhile fun entry => entry.keyId = key)
      (index.scanKey key entries) := by
  induction entries with
  | nil => exact .nil
  | cons entry rest ih =>
    obtain ⟨⟨⟨recorded, value⟩, decoded⟩, others⟩ := List.forall_mem_cons.mp keyed
    unfold scanKey
    by_cases own : entry.keyId = key
    · have same : recorded = key := (fst_of_equalityEntryKey decoded).trans own
      rw [List.takeWhile_cons_of_pos (by simpa using own), if_neg (not_not.mpr own), decoded]
      exact .cons ⟨by rw [decoded, same], rfl⟩ (ih others)
    · rw [List.takeWhile_cons_of_neg (by simpa using own), if_pos own]
      exact .nil

/-- A range scan keeps the postings of the key's scan that are in the range. -/
theorem scanRange_eq (index : BorrowedBaseIndex) (key : PropertyKeyId) (min max : PropertyValue)
    (entries : List EqualityDirEntry) : index.scanRange key min max entries =
      (((index.scanKey key entries).takeWhile fun posting =>
          compare posting.1 min = .lt ∨ compare posting.1 max ≠ .gt).filter fun posting =>
        compare posting.1 min ≠ .lt).map fun posting => ((key, posting.1), posting.2) := by
  induction entries with
  | nil => rfl
  | cons entry rest ih =>
    unfold scanRange scanKey
    by_cases own : entry.keyId = key
    · rw [if_neg (not_not.mpr own), if_neg (not_not.mpr own)]
      cases decoded : equalityEntryKey entry index.equalityText with
      | error error => exact ih
      | ok found =>
        obtain ⟨recorded, value⟩ := found
        have same : recorded = key := (fst_of_equalityEntryKey decoded).trans own
        dsimp only
        -- A value below the range is skipped, and the first one above it ends the scan.
        by_cases below : compare value min = .lt
        · simp [below, ih]
        · by_cases above : compare value max = .gt <;> simp [below, above, ih, same]
    · rw [if_pos own, if_pos own]
      rfl

/-- Whatever its bytes, an index that was accepted is read without a fallback, and so is that of a
base that attaches. -/
theorem fromSections_served :
    (∀ index accepted : BorrowedBaseIndex, index.fromSections = .ok accepted → accepted.Served) ∧
      ∀ [Crc32c] (bytes : Bytes) (view : BaseView), attachView bytes = .ok view →
        view.index.Served := by
  -- Attaching opens the index sections by the same function.
  suffices sections : ∀ index accepted : BorrowedBaseIndex, index.fromSections = .ok accepted →
      accepted.Served by
    refine ⟨sections, fun bytes view attached => ?_⟩
    obtain ⟨index, accepted⟩ := attachView_accepts attached
    exact sections index view.index accepted
  intro index accepted opened
  unfold fromSections at opened
  obtain ⟨label, opened⟩ := seq_eq_ok.mp opened
  obtain ⟨relationType, opened⟩ := seq_eq_ok.mp opened
  obtain ⟨elementIncidence, opened⟩ := seq_eq_ok.mp opened
  obtain ⟨relationIncidence, opened⟩ := seq_eq_ok.mp opened
  obtain ⟨equality, opened⟩ := seq_eq_ok.mp opened
  cases opened
  have checked (entry) (member : entry ∈ index.equalityDir) := forM_eq_ok.mp equality entry member
  have keyed (entry) (member : entry ∈ index.equalityDir) :
      ∃ key, equalityEntryKey entry index.equalityText = .ok key := by
    have valid := checked entry member
    cases decoded : equalityEntryKey entry index.equalityText with
    | error error => simp [decoded] at valid
    | ok key => exact ⟨key, rfl⟩
  refine ⟨validateSimpleDir_answers label, validateSimpleDir_answers relationType,
    validateSimpleDir_answers elementIncidence, validateSimpleDir_answers relationIncidence,
    keyed, ?_, fun key => ?_, fun key min max => scanRange_eq index key min max _⟩
  · intro entry member
    obtain ⟨key, decoded⟩ := keyed entry member
    have valid := checked entry member
    simp only [decoded] at valid
    unfold decodeSubjects
    cases sliced : slicePool index.equalityPool entry.membersOff entry.membersLen with
    | none => simp [sliced] at valid
    | some run =>
      simp only [sliced] at valid
      split at valid
      · cases valid
      · rename_i even
        rw [← length_of_slicePool sliced, Option.getD_some]
        exact length_decoded (Decidable.not_not.mp even) valid
  · exact scanKey_posts fun entry member => keyed entry (List.mem_of_mem_drop member)

/-- An index that posts element 7 under label 1, element 7 and relation 2 under the value 5 of key
3, and element 8 under its value 9. -/
def sample : BorrowedBaseIndex :=
  ⟨[⟨1, 0, 1⟩], [7], [], [], [⟨3, 1, 0, 5, 0, 0, 0, 4⟩, ⟨3, 1, 0, 9, 0, 0, 4, 2⟩],
    [0, 7, 1, 2, 0, 8], [], [], [], [], []⟩

/-- That index is accepted, and read whole. -/
theorem fromSections_served_sample :
    sample.Served ∧ sample.keyPostings 3 =
        [(.integer 5, [.element 7, .relation 2]), (.integer 9, [.element 8])] ∧
      sample.rangePostings 3 (.integer 6) (.integer 9) =
        [((3, .integer 9), [.element 8])] :=
  ⟨fromSections_served.1 sample sample rfl, by decide, by decide⟩

end BorrowedBaseIndex

end Oxgraph
