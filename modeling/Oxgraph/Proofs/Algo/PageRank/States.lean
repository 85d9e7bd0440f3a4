import Oxgraph.Proofs.Algo.PageRank.Rows

/-! The loops over one family of states, as changes of the values that its buffers hold. -/

namespace Oxgraph

open List (map_append map_singleton mem_map sum_append)
open Mutation (bind_run foldlM_run)

namespace PageRank

section Lay

variable {S Id : Type} [Field S]

/-- The values of states at their slots, and zero elsewhere. -/
def lay (states : List Id) (slot : Id → Nat) (values : Id → S) (index : Nat) : S :=
  (states.map fun state => if index = slot state then values state else 0).sum

variable {states : List Id} {slot : Id → Nat}

theorem lay_hidden (values : Id → S) {index : Nat} (hidden : index ∉ states.map slot) :
    lay states slot values index = 0 := by
  refine List.sum_eq_zero fun value member => ?_
  obtain ⟨state, inside, rfl⟩ := mem_map.mp member
  exact if_neg fun same => hidden (mem_map.mpr ⟨state, inside, same.symm⟩)

theorem lay_at (distinct : (states.map slot).Nodup) (values : Id → S) {state : Id}
    (inside : state ∈ states) : lay states slot values (slot state) = values state := by
  induction states with
  | nil => cases inside
  | cons first rest ih =>
    rw [List.map_cons] at distinct
    obtain ⟨absent, others⟩ := List.nodup_cons.mp distinct
    rw [lay, List.map_cons, List.sum_cons]
    rcases List.mem_cons.mp inside with rfl | later
    · have none_ := lay_hidden values absent
      rw [lay] at none_
      rw [if_pos rfl, none_, add_zero]
    · have differs : slot state ≠ slot first :=
        fun same => absent (same ▸ List.mem_map_of_mem later)
      rw [if_neg differs, zero_add]
      exact ih others later

theorem lay_div (values : Id → S) (sum : S) (index : Nat) :
    lay states slot values index / sum =
      lay states slot (fun state => values state / sum) index := by
  rw [lay, lay, div_eq_mul_inv, ← List.sum_map_mul_right]
  refine congrArg List.sum (List.map_congr_left fun state _ => ?_)
  rw [ite_mul, zero_mul, div_eq_mul_inv]

theorem lay_append (left right : List Id) (values : Id → S) (index : Nat) :
    lay (left ++ right) slot values index =
      lay left slot values index + lay right slot values index := by
  rw [lay, map_append, sum_append]
  rfl

theorem lay_map {K : Type} (embed : K → Id) (keys : List K) (values : Id → S) (index : Nat) :
    lay (keys.map embed) slot values index = lay keys (slot ∘ embed) (values ∘ embed) index := by
  rw [lay, List.map_map]
  rfl

end Lay

/-- Marking a state that is not marked marks it, and no other. -/
theorem markVisible_run {S : Type} {bound : Nat} {visible : List UInt8} {seen : Nat → Prop}
    [DecidablePred seen] (marks : Marks bound visible seen) {place : Nat} (inBound : place < bound)
    (fresh : ¬ seen place) (duplicate : Nat → PageRankError S) :
    markVisible duplicate place visible = (.ok (), visible.set place 1) ∧
      Marks bound (visible.set place 1) fun other => seen other ∨ other = place := by
  obtain ⟨wrote, after⟩ := marks.write inBound 1 (S := S)
  refine ⟨?_, after.congr fun other _ => ?_⟩
  · rw [markVisible, Mutation.read_bind, bind_run (marks.read inBound visible),
      if_neg fresh]
    exact wrote
  · by_cases same : other = place
    · subst same
      rw [Function.update_self, if_pos (.inr rfl)]
    · rw [Function.update_of_ne same]
      simp only [same, or_false]

/-- The marks of a family do not depend on how it is listed. -/
theorem Marks.perm {Id : Type} {bound : Nat} {visible : List UInt8} {slot : Id → Nat}
    {listing states : List Id} (marks : Marks bound visible (· ∈ listing.map slot))
    (same : listing.Perm states) : Marks bound visible (· ∈ states.map slot) := by
  refine marks.congr fun place _ => ?_
  simp only [(same.map slot).mem_iff]

section Loops

variable {S Id : Type} [Field S] {bound : Nat} {states : List Id}
  {index : Id → Except (PageRankError S) Nat} {slot : Id → Nat}
  (indexes : ∀ state ∈ states, index state = .ok (slot state))
  (inBound : ∀ state ∈ states, slot state < bound)
include indexes inBound

variable {before : Nat → S}

omit [Field S] in
/-- Starting ranks lays the values at the slots of the states. -/
theorem initializeStates_run {offset : Nat} {teleport : List S} {wide : Nat} {values : Nat → S}
    (holds : Fills wide teleport values) (covers : offset + bound ≤ wide) {ranks : List S}
    (fills : Fills bound ranks before) : ∃ after,
      initializeStates index offset teleport states ranks = (.ok (), after) ∧
        Fills bound after fun place =>
          if place ∈ states.map slot then values (offset + place) else before place := by
  -- The slots of the states so far hold values, and the rest what they held.
  unfold initializeStates
  refine Mutation.forM_run (fun done slots => Fills bound slots fun place =>
    if place ∈ done.map slot then values (offset + place) else before place) ?_ ?_
  · intro done state rest slots split current
    have member : state ∈ states := by simp [split]
    have within := inBound state member
    obtain ⟨wrote, after⟩ := current.write within (values (offset + slot state)) (S := S)
    rw [indexes state member, checked_ok_bind,
      bind_run (holds.read (by omega) slots), wrote]
    refine ⟨_, rfl, after.congr fun place _ => ?_⟩
    rw [map_append, map_singleton]
    by_cases same : place = slot state
    · subst same
      rw [Function.update_self, if_pos (List.mem_append_right _ List.mem_cons_self)]
    · rw [Function.update_of_ne same]
      simp only [List.mem_append, List.mem_singleton, same, or_false]
  · refine fills.congr fun place _ => ?_
    rw [List.map_nil, if_neg List.not_mem_nil]

/-- Distributing the ranks of states adds the shares that each sends, and the leaks. -/
theorem distributeStates_run {distribute : Id → S → Mutation (PageRankHalt S) (List S) S}
    {wide : Nat} {share : Id → Nat → S} {leak : Id → S}
    (distributes : ∀ state ∈ states, Distributes wide (distribute state) (share state) (leak state))
    {ranks : List S} {mass : Nat → S} (holds : Fills bound ranks mass) {next : List S}
    (fills : Fills wide next before) (dangling : S) : ∃ after,
      distributeStates index distribute ranks states dangling next =
          (.ok (dangling + (states.map fun state => mass (slot state) * leak state).sum), after) ∧
        Fills wide after fun place => before place +
          (states.map fun state => mass (slot state) * share state place).sum := by
  -- The sums of the states so far are the invariant, both of the leaks and of each slot.
  have folded : ∃ last after,
      distributeStates index distribute ranks states dangling next = (.ok last, after) ∧
        last = dangling + (states.map fun state => mass (slot state) * leak state).sum ∧
        Fills wide after fun place => before place +
          (states.map fun state => mass (slot state) * share state place).sum := by
    unfold distributeStates
    refine foldlM_run (fun done last after =>
      last = dangling + (done.map fun state => mass (slot state) * leak state).sum ∧
        Fills wide after fun place => before place +
          (done.map fun state => mass (slot state) * share state place).sum) ?_ ?_
    · rintro done state rest _ slots split ⟨rfl, current⟩
      have member : state ∈ states := by simp [split]
      obtain ⟨after, ran, sent⟩ := distributes state member (mass (slot state)) slots _ current
      rw [indexes state member, checked_ok_bind,
        bind_run (holds.read (inBound state member) slots), bind_run ran]
      refine ⟨_, after, rfl, ?_, sent.congr fun place _ => ?_⟩
      · rw [map_append, sum_append, map_singleton, List.sum_singleton, add_assoc]
      · rw [map_append, sum_append, map_singleton, List.sum_singleton, add_assoc]
    · refine ⟨by simp, fills.congr fun place _ => by simp⟩
  obtain ⟨_, after, ran, rfl, sent⟩ := folded
  exact ⟨after, ran, sent⟩

variable (distinct : (states.map slot).Nodup)
include distinct

/-- Filling the states of a family writes their values, marks them, and adds up. -/
theorem fillStates_run (duplicate : Nat → PageRankError S) {offset wide : Nat}
    {valueAt : Nat → Mutation (PageRankHalt S) (List S × List UInt8) S} {value : Nat → S}
    (values : ∀ state ∈ states, ∀ slots,
      valueAt (offset + slot state) slots = (.ok (value (offset + slot state)), slots))
    (covers : offset + bound ≤ wide) {out : List S} {visible : List UInt8}
    (fills : Fills wide out before) (blank : Fills bound visible fun _ => 0) (counted : Nat × S) :
    ∃ after, fillStates index duplicate offset valueAt states counted (out, visible) =
        (.ok (counted.1 + states.length,
          counted.2 + (states.map fun state => value (offset + slot state)).sum), after) ∧
      (Fills wide after.1 fun place =>
        if place ∈ states.map (fun state => offset + slot state) then value place
        else before place) ∧
      Marks bound after.2 (· ∈ states.map slot) := by
  -- The states so far are counted, written and marked, and so none of the rest is.
  have folded : ∃ last after,
      fillStates index duplicate offset valueAt states counted (out, visible) = (.ok last, after) ∧
        last = (counted.1 + states.length,
          counted.2 + (states.map fun state => value (offset + slot state)).sum) ∧
        (Fills wide after.1 fun place =>
          if place ∈ states.map (fun state => offset + slot state) then value place
          else before place) ∧
        Marks bound after.2 (· ∈ states.map slot) := by
    unfold fillStates
    refine foldlM_run (fun done last (after : List S × List UInt8) =>
      last = (counted.1 + done.length,
        counted.2 + (done.map fun state => value (offset + slot state)).sum) ∧
      (Fills wide after.1 fun place =>
        if place ∈ done.map (fun state => offset + slot state) then value place
        else before place) ∧
      Marks bound after.2 (· ∈ done.map slot)) ?_ ?_
    · rintro done state rest _ ⟨slots, marks⟩ split ⟨rfl, current, shown⟩
      have member : state ∈ states := by simp [split]
      have within := inBound state member
      have fresh : slot state ∉ done.map slot := by
        rw [split, map_append, List.map_cons] at distinct
        exact fun listed => (List.disjoint_of_nodup_append distinct) listed List.mem_cons_self
      obtain ⟨marked, seen⟩ := markVisible_run shown within fresh duplicate
      obtain ⟨wrote, after⟩ := current.write (show offset + slot state < wide by omega)
        (value (offset + slot state)) (S := S)
      have first : (Mutation.onPart Prod.snd (fun slots visible => (slots.1, visible))
          (markVisible duplicate (slot state)) : Mutation (PageRankHalt S) _ _) (slots, marks) =
          (.ok (), (slots, marks.set (slot state) 1)) := Mutation.onPart_run marked
      have second : (Mutation.onPart Prod.fst (fun slots out => (out, slots.2))
          (writeAt (offset + slot state) (value (offset + slot state))) :
            Mutation (PageRankHalt S) _ _) (slots, marks.set (slot state) 1) =
          (.ok (), (slots.set (offset + slot state) (value (offset + slot state)),
            marks.set (slot state) 1)) := Mutation.onPart_run wrote
      rw [indexes state member, checked_ok_bind, bind_run first,
        bind_run (values state member _), bind_run second]
      refine ⟨_, _, rfl, ?_, after.congr fun place _ => ?_, seen.congr fun place _ => ?_⟩
      · rw [List.length_append, List.length_singleton, map_append, sum_append,
          map_singleton, List.sum_singleton, add_assoc, add_assoc]
      · rw [map_append, map_singleton]
        by_cases same : place = offset + slot state
        · subst same
          rw [Function.update_self, if_pos (List.mem_append_right _ List.mem_cons_self)]
        · rw [Function.update_of_ne same]
          simp only [List.mem_append, List.mem_singleton, same, or_false]
      · simp only [map_append, map_singleton, List.mem_append, List.mem_singleton]
    · refine ⟨by simp, fills.congr fun place _ => by simp, blank.congr fun place _ => by simp⟩
  obtain ⟨_, after, ran, rfl, written, shown⟩ := folded
  exact ⟨after, ran, written, shown⟩

variable [LinearOrder S]

/-- Applying the teleport writes the new ranks of the states, and adds up how far they move. -/
theorem applyTeleport_run (damping scale : S) {offset wide : Nat} {teleport next : List S}
    {restart sent : Nat → S} (starts : Fills wide teleport restart)
    (covers : offset + bound ≤ wide) (sends : Fills bound next sent) {ranks : List S}
    {mass : Nat → S} (fills : Fills bound ranks mass) (delta : S) : ∃ after,
      applyTeleport index offset damping scale teleport next states delta ranks =
        (.ok (delta + (states.map fun state => |damping * sent (slot state) +
          scale * restart (offset + slot state) - mass (slot state)|).sum), after) ∧
      Fills bound after fun place =>
        if place ∈ states.map slot then damping * sent place + scale * restart (offset + place)
        else mass place := by
  -- A rank is read before it is written, and its state comes once, so it is the old one.
  have folded : ∃ last after,
      applyTeleport index offset damping scale teleport next states delta ranks =
        (.ok last, after) ∧
      last = delta + (states.map fun state => |damping * sent (slot state) +
        scale * restart (offset + slot state) - mass (slot state)|).sum ∧
      Fills bound after fun place =>
        if place ∈ states.map slot then damping * sent place + scale * restart (offset + place)
        else mass place := by
    unfold applyTeleport
    refine foldlM_run (fun done last after =>
      last = delta + (done.map fun state => |damping * sent (slot state) +
        scale * restart (offset + slot state) - mass (slot state)|).sum ∧
      Fills bound after fun place =>
        if place ∈ done.map slot then damping * sent place + scale * restart (offset + place)
        else mass place) ?_ ?_
    · rintro done state rest _ slots split ⟨rfl, current⟩
      have member : state ∈ states := by simp [split]
      have within := inBound state member
      have fresh : slot state ∉ done.map slot := by
        rw [split, map_append, List.map_cons] at distinct
        exact fun listed => (List.disjoint_of_nodup_append distinct) listed List.mem_cons_self
      have previous := current.read within slots (S := S)
      rw [if_neg fresh] at previous
      obtain ⟨wrote, after⟩ := current.write within (damping * sent (slot state) +
        scale * restart (offset + slot state)) (S := S)
      rw [indexes state member, checked_ok_bind, bind_run (sends.read within slots),
        bind_run (starts.read (by omega) slots), Mutation.read_bind,
        bind_run previous]
      refine ⟨_, _, bind_run wrote, ?_, after.congr fun place _ => ?_⟩
      · rw [map_append, sum_append, map_singleton, List.sum_singleton, ← add_assoc]
        rfl
      · rw [map_append, map_singleton]
        by_cases same : place = slot state
        · subst same
          rw [Function.update_self, if_pos (List.mem_append_right _ List.mem_cons_self)]
        · rw [Function.update_of_ne same]
          simp only [List.mem_append, List.mem_singleton, same, or_false]
    · refine ⟨by simp, fills.congr fun place _ => by simp⟩
  obtain ⟨_, after, ran, rfl, written⟩ := folded
  exact ⟨after, ran, written⟩

end Loops

section Listings

variable {S Id : Type} [Field S] {bound : Nat} {states listing : List Id}
  {index : Id → Except (PageRankError S) Nat} {slot : Id → Nat}
  (indexes : ∀ state ∈ listing, index state = .ok (slot state))
  (inBound : ∀ state ∈ listing, slot state < bound)
  (distinct : (states.map slot).Nodup) (same : listing.Perm states)

include distinct same in
/-- Values at the slots of a listing are laid at those of the states. -/
theorem Fills.lays {slots : List S} {written before : Nat → S} {values : Id → S}
    (fills : Fills bound slots fun place =>
      if place ∈ listing.map slot then written place else before place)
    (shown : ∀ state ∈ states, written (slot state) = values state)
    (hidden : ∀ place, place ∉ states.map slot → before place = 0) :
    Fills bound slots (lay states slot values) := by
  refine fills.congr fun place _ => ?_
  -- The states of a listing are those of its permutations.
  by_cases visible : place ∈ listing.map slot
  · obtain ⟨state, inside, rfl⟩ := mem_map.mp visible
    have member := same.mem_iff.mp inside
    rw [if_pos visible, shown state member, lay_at distinct _ member]
  · have absent : place ∉ states.map slot :=
      fun listed => visible ((same.map _).mem_iff.mpr listed)
    rw [if_neg visible, hidden place absent, lay_hidden _ absent]

include indexes inBound distinct same

/-- Starting ranks over any listing lays the values of the states. -/
theorem initializeStates_lays {offset : Nat} {teleport : List S} {wide : Nat} {values : Nat → S}
    (holds : Fills wide teleport values) (covers : offset + bound ≤ wide) {ranks : List S}
    (zeros : Fills bound ranks fun _ => 0) {start : Id → S}
    (starts : ∀ state ∈ states, values (offset + slot state) = start state) : ∃ after,
      initializeStates index offset teleport listing ranks = (.ok (), after) ∧
        Fills bound after (lay states slot start) := by
  obtain ⟨after, initialized, written⟩ := initializeStates_run indexes inBound holds covers zeros
  exact ⟨after, initialized, written.lays distinct same starts fun _ _ => rfl⟩

/-- Filling over any listing adds the values of the states to what is laid. -/
theorem fillStates_lays (duplicate : Nat → PageRankError S) {offset wide : Nat}
    {valueAt : Nat → Mutation (PageRankHalt S) (List S × List UInt8) S} {value : Nat → S}
    (values : ∀ state ∈ states, ∀ slots,
      valueAt (offset + slot state) slots = (.ok (value (offset + slot state)), slots))
    (covers : offset + bound ≤ wide) {out : List S} {visible : List UInt8} {before : Nat → S}
    (fills : Fills wide out before) (absent : ∀ state ∈ states, before (offset + slot state) = 0)
    (blank : Fills bound visible fun _ => 0) (counted : Nat × S) :
    ∃ after, fillStates index duplicate offset valueAt listing counted (out, visible) =
        (.ok (counted.1 + states.length,
          counted.2 + (states.map fun state => value (offset + slot state)).sum), after) ∧
      (Fills wide after.1 fun place => before place +
        lay states (offset + slot ·) (fun state => value (offset + slot state)) place) ∧
      Marks bound after.2 (· ∈ states.map slot) := by
  -- Places at an offset are distinct as slots are, so each value is laid once.
  have shifted : (states.map (offset + slot ·)).Nodup := by
    have moved := distinct.map (fun _ _ => Nat.add_left_cancel :
      Function.Injective (offset + ·))
    rwa [List.map_map] at moved
  obtain ⟨after, filled, written, marked⟩ := fillStates_run indexes inBound
    ((same.map slot).nodup_iff.mpr distinct) duplicate
    (fun state inside => values state (same.mem_iff.mp inside)) covers fills blank counted
  refine ⟨after, ?_, written.congr fun place _ => ?_, marked.perm same⟩
  · rw [filled, same.length_eq, (same.map _).sum_eq]
  · by_cases shown : place ∈ listing.map (offset + slot ·)
    · obtain ⟨state, inside, rfl⟩ := mem_map.mp shown
      have member := same.mem_iff.mp inside
      rw [if_pos shown, absent state member, zero_add]
      exact (lay_at shifted (fun state => value (offset + slot state)) member).symm
    · have hidden : place ∉ states.map (offset + slot ·) :=
        fun listed => shown ((same.map _).mem_iff.mpr listed)
      rw [if_neg shown, lay_hidden _ hidden, add_zero]

variable [LinearOrder S]

/-- Applying the teleport over any listing lays the new ranks of the states. -/
theorem applyTeleport_lays {damping scale : S} {offset wide : Nat} {teleport next : List S}
    {restart sent : Nat → S} (starts : Fills wide teleport restart)
    (covers : offset + bound ≤ wide) (sends : Fills bound next sent) {ranks : List S}
    {mass target : Id → S} (fills : Fills bound ranks (lay states slot mass))
    (stepped : ∀ state ∈ states,
      damping * sent (slot state) + scale * restart (offset + slot state) = target state)
    (delta : S) : ∃ after,
      applyTeleport index offset damping scale teleport next listing delta ranks =
        (.ok (delta + (listing.map fun state => |target state - mass state|).sum), after) ∧
      Fills bound after (lay states slot target) := by
  obtain ⟨after, applied, written⟩ := applyTeleport_run indexes inBound
    ((same.map slot).nodup_iff.mpr distinct) damping scale starts covers sends fills delta
  refine ⟨after, ?_, written.lays distinct same stepped fun _ => lay_hidden mass⟩
  have moved : (listing.map fun state => |damping * sent (slot state) +
      scale * restart (offset + slot state) - lay states slot mass (slot state)|) =
        listing.map fun state => |target state - mass state| := by
    refine List.map_congr_left fun state inside => ?_
    have member := same.mem_iff.mp inside
    rw [stepped state member, lay_at distinct mass member]
  rw [applied, moved]

end Listings

/-- Normalizing divides what fills a slice. -/
theorem normalizePersonalization_run {S : Type} [Field S] [LinearOrder S] {bound count : Nat}
    {sum : S} (some : count ≠ 0) (positive : 0 < sum) {out : List S} {values : Nat → S}
    (fills : Fills bound out values) : ∃ after,
      normalizePersonalization count sum out = (.ok (), after) ∧
        Fills bound after fun place => values place / sum := by
  refine ⟨out.map (· / sum), ?_, fun place within => ?_⟩
  · rw [normalizePersonalization, if_neg some, if_neg (not_le.mpr positive)]
    rfl
  · rw [List.getElem?_map, fills place within]
    rfl

-- What a run is given.

section Inputs

variable {S : Type} {bound : Nat}

theorem Fills.length_le {T : Type} {slots : List T} {values : Nat → T}
    (fills : Fills bound slots values) : bound ≤ slots.length := by
  cases bound with
  | zero => exact Nat.zero_le _
  | succ bound => exact (List.getElem?_eq_some_iff.mp (fills bound (Nat.lt_succ_self _))).1

variable [Field S] [LinearOrder S] {scalar : PageRankScalar S}

theorem checkValue_run (exact_ : Exact scalar) {invalid : S → PageRankError S} {value : S}
    (nonneg : 0 ≤ value) : checkValue scalar invalid value = .ok value := by
  rw [checkValue, exact_.finite, if_neg]
  rintro (never | negative)
  · cases never
  · exact absurd nonneg (not_le.mpr negative)

variable {personalization : Option (List S)} {visible : List Nat}

/-- The value that a state starts from is read. -/
theorem valueAt_run {P : Type} (exact_ : Exact scalar)
    (accepted : Personalizes personalization bound visible) {state : Nat}
    (inBound : state < bound) (inside : state ∈ visible) (slots : P) :
    (valueAt scalar personalization state : Mutation (PageRankHalt S) P S) slots =
      (.ok (startValue personalization state), slots) := by
  have nonneg := accepted.nonneg state inside
  cases personalization with
  | none => rfl
  | some input =>
    have covered : state < input.length := Nat.lt_of_lt_of_le inBound (accepted.covers input rfl)
    have read : input[state]? = some (startValue (some input) state) := by
      rw [startValue, List.getD_eq_getElem?_getD, List.getElem?_eq_getElem covered]
      rfl
    have slot : (slotAt input state : Mutation (PageRankHalt S) P S) slots =
        (.ok (startValue (some input) state), slots) := by
      rw [slotAt, read]
      rfl
    rw [valueAt, bind_run slot, checkValue_run exact_ nonneg]
    rfl

theorem ensurePersonalizationLen_run (accepted : Personalizes personalization bound visible) :
    ensurePersonalizationLen personalization bound = .ok () := by
  cases personalization with
  | none => rfl
  | some input => exact if_neg (Nat.not_lt.mpr (accepted.covers input rfl))

/-- The part of the restarts that a state gets. -/
def restartShare (personalization : Option (List S)) (visible : List Nat) (state : Nat) : S :=
  startValue personalization state / (visible.map (startValue personalization)).sum

omit [LinearOrder S] in
/-- The parts of the restarts add up to one. -/
theorem sum_restartShare (some : (visible.map (startValue personalization)).sum ≠ 0) :
    (visible.map (restartShare personalization visible)).sum = 1 := by
  unfold restartShare
  simp only [div_eq_mul_inv]
  rw [List.sum_map_mul_right]
  exact mul_inv_cancel₀ some

theorem restartShare_nonneg [IsStrictOrderedRing S]
    (accepted : Personalizes personalization bound visible) {state : Nat}
    (inside : state ∈ visible) : 0 ≤ restartShare personalization visible state :=
  div_nonneg (accepted.nonneg state inside) (le_of_lt accepted.positive)

/-- States with values that add up to something are some. -/
theorem Personalizes.some {personalization : Option (List S)} {bound : Nat} {visible : List Nat}
    (accepted : Personalizes personalization bound visible) : visible ≠ [] := by
  rintro rfl
  exact lt_irrefl _ accepted.positive

/-- A configuration that is accepted damps by a part, and iterates. -/
theorem of_validateConfig {config : PageRankConfig S}
    (accepted : validateConfig scalar config = .ok ()) :
    0 ≤ config.damping ∧ config.damping ≤ 1 ∧ config.maxIterations ≠ 0 := by
  -- Each of the checks fails on its own.
  unfold validateConfig at accepted
  split at accepted
  case isTrue => cases accepted
  case isFalse damping =>
    split at accepted
    case isTrue => cases accepted
    case isFalse =>
      split at accepted
      case isTrue => cases accepted
      case isFalse some =>
        obtain ⟨_, low, high⟩ := not_or.mp damping |>.imp_right not_or.mp
        exact ⟨not_lt.mp low, not_lt.mp high, some⟩

end Inputs

end PageRank

end Oxgraph
