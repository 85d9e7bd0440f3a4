import Mathlib.Data.List.Infix
import Mathlib.Data.List.Basic

/-!
Streams that arrive in chunks.

A reader fills a buffer chunk by chunk until it holds enough. What it then holds is a prefix of
the stream that ends with a chunk. A marker that it waits for is found where the stream has it.
-/

namespace Oxgraph.Chunks

universe u

variable {A : Type u}

/-- Chunks deliver a stream, none of them empty and none longer than a bound. -/
structure Delivers (bound : Nat) (chunks : List (List A)) (stream : List A) : Prop where
  flatten : chunks.flatten = stream
  nonempty : ∀ chunk ∈ chunks, 1 ≤ chunk.length
  bounded : ∀ chunk ∈ chunks, chunk.length ≤ bound

/-- Appends chunks to a buffer until it holds enough; also what is left of them. -/
def fill (enough : List A → Bool) : List A → List (List A) → List A × List (List A)
  | buffer, [] => (buffer, [])
  | buffer, chunk :: rest =>
    if enough buffer then (buffer, chunk :: rest) else fill enough (buffer ++ chunk) rest

/-- A filled buffer took the fewest chunks that are enough, or all of them. -/
theorem fill_spec (enough : List A → Bool) (buffer : List A) (chunks : List (List A)) :
    ∃ count ≤ chunks.length,
      fill enough buffer chunks = (buffer ++ (chunks.take count).flatten, chunks.drop count) ∧
        (∀ fewer < count, enough (buffer ++ (chunks.take fewer).flatten) = false) ∧
        (enough (buffer ++ (chunks.take count).flatten) = true ∨ count = chunks.length) := by
  induction chunks generalizing buffer with
  | nil => exact ⟨0, Nat.le_refl 0, by simp [fill], by simp, .inr rfl⟩
  | cons chunk rest ih =>
    cases full : enough buffer with
    | true => exact ⟨0, Nat.zero_le _, by simp [fill, full], by simp, .inl (by simpa using full)⟩
    | false =>
      obtain ⟨count, inside, filled, before, stop⟩ := ih (buffer ++ chunk)
      refine ⟨count + 1, Nat.succ_le_succ inside, ?_, ?_, ?_⟩
      · simp [fill, full, filled]
      · intro fewer less
        cases fewer with
        | zero => simpa using full
        | succ fewer => simpa using before fewer (Nat.lt_of_succ_lt_succ less)
      · simpa using stop

/-- Nothing of a stream is lost between the buffer and the chunks that are left. -/
theorem fill_flatten (enough : List A → Bool) (buffer : List A) (chunks : List (List A)) :
    (fill enough buffer chunks).1 ++ (fill enough buffer chunks).2.flatten =
      buffer ++ chunks.flatten := by
  obtain ⟨count, -, filled, -, -⟩ := fill_spec enough buffer chunks
  rw [filled, List.append_assoc, ← List.flatten_append, List.take_append_drop]

/-- A buffer that is left without enough has the whole stream. -/
theorem fill_enough_or (enough : List A → Bool) (buffer : List A) (chunks : List (List A)) :
    enough (fill enough buffer chunks).1 = true ∨ (fill enough buffer chunks).2 = [] := by
  obtain ⟨count, -, filled, -, stop⟩ := fill_spec enough buffer chunks
  rw [filled]
  refine stop.imp_right fun all => ?_
  rw [all, List.drop_length]

/-- The chunks that are left are among those that were there. -/
theorem mem_of_mem_fill {enough : List A → Bool} {buffer : List A} {chunks : List (List A)}
    {chunk : List A} (member : chunk ∈ (fill enough buffer chunks).2) : chunk ∈ chunks := by
  obtain ⟨count, -, filled, -, -⟩ := fill_spec enough buffer chunks
  rw [filled] at member
  exact List.mem_of_mem_drop member

/-- A buffer filled up to a length, and then cut to it, is the front of the stream. -/
theorem take_fill (target : Nat) (buffer : List A) (chunks : List (List A)) :
    (fill (fun held => target ≤ held.length) buffer chunks).1.take target =
      (buffer ++ chunks.flatten).take target := by
  have whole := fill_flatten (fun held => decide (target ≤ held.length)) buffer chunks
  rw [← whole]
  obtain reached | all := fill_enough_or (fun held => decide (target ≤ held.length)) buffer chunks
  · rw [List.take_append_of_le_length (by simpa using reached)]
  · rw [all, List.flatten_nil, List.append_nil]

/-- Letters that arrive one by one. -/
def singles (letters : List A) : List (List A) := letters.map fun letter => [letter]

theorem flatten_singles (letters : List A) : (singles letters).flatten = letters := by
  rw [singles, ← List.flatMap_def, List.flatMap_singleton']

theorem length_of_mem_singles {letters chunk : List A} (member : chunk ∈ singles letters) :
    chunk.length = 1 := by
  obtain ⟨letter, -, rfl⟩ := List.mem_map.mp member
  rfl

/-- A stream can arrive with a place inside it inside one of its chunks. -/
theorem exists_delivers_across {bound cut : Nat} {stream : List A} (room : 2 ≤ bound)
    (after : 0 < cut) (before : cut < stream.length) :
    ∃ chunks, Delivers bound chunks stream ∧
      ∀ count, (chunks.take count).flatten.length ≠ cut := by
  -- The letters around the place arrive together, and every other one by itself.
  obtain ⟨front, first, second, rest, parts, place⟩ : ∃ front first second rest,
      stream = front ++ first :: second :: rest ∧ front.length + 1 = cut := by
    have short : (stream.take (cut - 1)).length + 1 = cut := by
      rw [List.length_take]
      omega
    refine ⟨stream.take (cut - 1), stream[cut - 1], stream[cut], stream.drop (cut + 1), ?_, short⟩
    have second := List.drop_eq_getElem_cons before
    have first := List.drop_eq_getElem_cons (show cut - 1 < stream.length by omega)
    rw [Nat.sub_add_cancel after] at first
    rw [← second, ← first, List.take_append_drop]
  have pieces : ∀ chunk ∈ singles front ++ [first, second] :: singles rest,
      1 ≤ chunk.length ∧ chunk.length ≤ 2 := by
    intro chunk member
    obtain early | late := List.mem_append.mp member
    · have one := length_of_mem_singles early
      omega
    · obtain rfl | late := List.mem_cons.mp late
      · exact ⟨Nat.le_succ 1, Nat.le_refl 2⟩
      · have one := length_of_mem_singles late
        omega
  refine ⟨singles front ++ [first, second] :: singles rest,
    ⟨?_, fun chunk member => (pieces chunk member).1,
      fun chunk member => (pieces chunk member).2.trans room⟩, fun count => ?_⟩
  · rw [parts, List.flatten_append, List.flatten_cons, flatten_singles, flatten_singles]
    rfl
  · have single : (singles front).length = front.length := List.length_map _
    obtain early | late := (Nat.lt_or_ge front.length count).symm
    · rw [List.take_append_of_le_length (by omega), singles, ← List.map_take, ← singles,
        flatten_singles, List.length_take]
      omega
    · obtain ⟨more, rfl⟩ : ∃ more, count = (singles front).length + (more + 1) :=
        ⟨count - front.length - 1, by omega⟩
      rw [List.take_length_add_append, List.flatten_append, List.length_append, flatten_singles,
        List.take_succ_cons, List.flatten_cons, List.length_append]
      simp only [List.length_cons, List.length_nil]
      omega

section Markers

variable [DecidableEq A] (marker : List A)

/-- Where the first occurrence of a marker ends. -/
def firstEnd (stream : List A) : Option Nat :=
  (List.range (stream.length + 1)).find? fun stop => marker <:+ stream.take stop

/-- A stream through the first occurrence of a marker, or to its end if there is none. -/
def throughFirst (stream : List A) : List A :=
  match firstEnd marker stream with
  | some stop => stream.take stop
  | none => stream

variable {marker} {front rest stream : List A} {stop : Nat}

theorem firstEnd_eq_some :
    firstEnd marker stream = some stop ↔
      stop ≤ stream.length ∧ marker <:+ stream.take stop ∧
        ∀ before < stop, ¬marker <:+ stream.take before := by
  rw [firstEnd, List.find?_range_eq_some]
  simp only [decide_eq_true_eq, List.mem_range, Nat.lt_succ_iff, Bool.not_eq_true',
    decide_eq_false_iff_not]
  tauto

theorem firstEnd_eq_none :
    firstEnd marker stream = none ↔ ∀ stop ≤ stream.length, ¬marker <:+ stream.take stop := by
  unfold firstEnd
  simp only [List.find?_eq_none, List.mem_range, Nat.lt_succ_iff, decide_eq_true_eq]

/-- A first occurrence stays the first when more of the stream arrives. -/
theorem firstEnd_append_of_some (found : firstEnd marker front = some stop) :
    firstEnd marker (front ++ rest) = some stop := by
  obtain ⟨inside, ends, first⟩ := firstEnd_eq_some.mp found
  refine firstEnd_eq_some.mpr ⟨by rw [List.length_append]; omega, ?_, fun before less => ?_⟩
  · rwa [List.take_append_of_le_length inside]
  · rw [List.take_append_of_le_length (by omega)]
    exact first before less

/-- A marker that has not yet occurred ends past what has arrived. -/
theorem length_lt_of_firstEnd (missing : firstEnd marker front = none)
    (found : firstEnd marker (front ++ rest) = some stop) : front.length < stop := by
  obtain ⟨-, ends, -⟩ := firstEnd_eq_some.mp found
  by_contra short
  have inside : stop ≤ front.length := by omega
  rw [List.take_append_of_le_length inside] at ends
  exact firstEnd_eq_none.mp missing stop inside ends

theorem throughFirst_of_some (found : firstEnd marker stream = some stop) :
    throughFirst marker stream = stream.take stop := by rw [throughFirst, found]

theorem throughFirst_of_none (missing : firstEnd marker stream = none) :
    throughFirst marker stream = stream := by rw [throughFirst, missing]

theorem throughFirst_prefix : throughFirst marker stream <+: stream := by
  cases found : firstEnd marker stream with
  | none => rw [throughFirst_of_none found]
  | some stop =>
    rw [throughFirst_of_some found]
    exact List.take_prefix stop stream

/-- What a stream goes through first has arrived as soon as the marker has. -/
theorem throughFirst_append_of_some (found : firstEnd marker front = some stop) :
    throughFirst marker (front ++ rest) = throughFirst marker front := by
  have inside := (firstEnd_eq_some.mp found).1
  rw [throughFirst_of_some found, throughFirst_of_some (firstEnd_append_of_some found),
    List.take_append_of_le_length inside]

/-- A marker ends what a stream goes through first. -/
theorem firstEnd_throughFirst (found : firstEnd marker stream = some stop) :
    firstEnd marker (throughFirst marker stream) = some stop := by
  obtain ⟨inside, ends, first⟩ := firstEnd_eq_some.mp found
  rw [throughFirst_of_some found]
  refine firstEnd_eq_some.mpr ⟨?_, ?_, fun before less => ?_⟩
  · rw [List.length_take]
    omega
  · rwa [List.take_take, Nat.min_self]
  · rw [List.take_take, Nat.min_eq_left (Nat.le_of_lt less)]
    exact first before less

/-- Until a marker arrives, the stream goes through all that has arrived. -/
theorem length_le_throughFirst (missing : firstEnd marker front = none) :
    front.length ≤ (throughFirst marker (front ++ rest)).length := by
  cases found : firstEnd marker (front ++ rest) with
  | none =>
    rw [throughFirst_of_none found, List.length_append]
    omega
  | some stop =>
    have past := length_lt_of_firstEnd missing found
    have inside := (firstEnd_eq_some.mp found).1
    rw [throughFirst_of_some found, List.length_take]
    omega

/-- A buffer filled until a marker occurs goes through it first as the whole stream does. -/
theorem throughFirst_fill (chunks : List (List A)) :
    throughFirst marker (fill (fun held => (firstEnd marker held).isSome) [] chunks).1 =
      throughFirst marker chunks.flatten := by
  have whole := fill_flatten (fun held => (firstEnd marker held).isSome) [] chunks
  rw [List.nil_append] at whole
  rw [← whole]
  obtain found | all := fill_enough_or (fun held => (firstEnd marker held).isSome) [] chunks
  · obtain ⟨stop, found⟩ := Option.isSome_iff_exists.mp found
    rw [throughFirst_append_of_some found]
  · rw [all, List.flatten_nil, List.append_nil]

/-- A buffer filled until a marker occurs ends with it exactly when a chunk does. -/
theorem fill_eq_throughFirst_iff (chunks : List (List A)) :
    (fill (fun held => (firstEnd marker held).isSome) [] chunks).1 =
        throughFirst marker chunks.flatten ↔
      ∃ count, (chunks.take count).flatten = throughFirst marker chunks.flatten := by
  obtain ⟨count, inside, filled, before, stop⟩ :=
    fill_spec (fun held => (firstEnd marker held).isSome) [] chunks
  have through : throughFirst marker (fill (fun held => (firstEnd marker held).isSome) [] chunks).1 =
      throughFirst marker chunks.flatten := throughFirst_fill chunks
  rw [filled] at through ⊢
  simp only [List.nil_append] at through before stop ⊢
  constructor
  · intro same
    exact ⟨count, same⟩
  · rintro ⟨other, same⟩
    cases found : firstEnd marker chunks.flatten with
    | none =>
      -- No buffer is ever enough, so all chunks were taken.
      have all : count = chunks.length := by
        refine stop.resolve_left fun enough => ?_
        obtain ⟨early, there⟩ := Option.isSome_iff_exists.mp enough
        have later : firstEnd marker ((chunks.take count).flatten ++ (chunks.drop count).flatten) =
            some early := firstEnd_append_of_some there
        rw [← List.flatten_append, List.take_append_drop, found] at later
        exact absurd later (by simp)
      rw [all, List.take_length, throughFirst_of_none found]
    | some early =>
      -- The marker is not there before the buffer stops, so the chunks taken are no more.
      have there := firstEnd_throughFirst found
      have enough : count ≤ other := by
        by_contra less
        have missing := before other (by omega)
        rw [same, there] at missing
        exact absurd missing (by simp)
      have front : (chunks.take count).flatten <+: (chunks.take other).flatten := by
        obtain ⟨more, parts⟩ := List.take_prefix_take_left (l := chunks) enough
        exact ⟨more.flatten, by rw [← parts, List.flatten_append]⟩
      rw [same] at front
      refine front.eq_of_length_le ?_
      rw [← through]
      exact throughFirst_prefix.length_le

end Markers

end Oxgraph.Chunks
