import Mathlib.Algebra.Order.BigOperators.Group.List
import Mathlib.Tactic.FieldSimp
import Mathlib.Tactic.Linarith
import Mathlib.Tactic.Ring
import Oxgraph.Spec.PageRank

/-! What one state sends to the visible targets of its entries, and what is left of its rank. -/

namespace Oxgraph

open Mutation (bind_run)

namespace PageRank

/-- The slots below a bound hold values. -/
def Fills {T : Type} (bound : Nat) (slots : List T) (values : Nat → T) : Prop :=
  ∀ index < bound, slots[index]? = some (values index)

namespace Fills

variable {T S P : Type} {bound : Nat} {slots : List T} {values : Nat → T}

/-- A write changes the value of one slot. -/
theorem write (fills : Fills bound slots values) {index : Nat} (inBound : index < bound)
    (value : T) : (writeAt index value : Mutation (PageRankHalt S) (List T) Unit) slots =
        (.ok (), slots.set index value) ∧
      Fills bound (slots.set index value) (Function.update values index value) := by
  have inside := (List.getElem?_eq_some_iff.mp (fills index inBound)).1
  constructor
  · rw [writeAt, Mutation.attempt, if_pos inside]
  · intro other within
    by_cases same : other = index
    · subst same
      rw [List.getElem?_set_self inside, Function.update_self]
    · rw [List.getElem?_set_ne (Ne.symm same), Function.update_of_ne same]
      exact fills other within

theorem read (fills : Fills bound slots values) {index : Nat} (inBound : index < bound)
    (state : P) : (slotAt slots index : Mutation (PageRankHalt S) P T) state =
      (.ok (values index), state) := by
  rw [slotAt, fills index inBound]
  rfl

theorem congr {others : Nat → T} (fills : Fills bound slots values)
    (same : ∀ index < bound, values index = others index) : Fills bound slots others :=
  fun index inBound => (fills index inBound).trans (congrArg some (same index inBound))

/-- Clearing fills a long enough slice. -/
theorem clear (enough : bound ≤ slots.length) (value : T) : ∃ after,
    (PageRank.clear value bound : Mutation (PageRankHalt S) (List T) Unit) slots =
        (.ok (), after) ∧
      after.length = slots.length ∧ Fills bound after fun _ => value := by
  refine ⟨List.replicate bound value ++ slots.drop bound, ?_, ?_, fun index inBound => ?_⟩
  · rw [PageRank.clear, Mutation.attempt, if_neg (Nat.not_lt.mpr enough)]
  · rw [List.length_append, List.length_replicate, List.length_drop]
    omega
  · rw [List.getElem?_append_left (by rwa [List.length_replicate]), List.getElem?_replicate,
      if_pos inBound]

end Fills

/-- The marks of the visible states. -/
def Marks (bound : Nat) (visible : List UInt8) (seen : Nat → Prop) [DecidablePred seen] : Prop :=
  Fills bound visible fun index => if seen index then 1 else 0

section Rows

theorem checked_ok_bind {S P T U : Type} (value : T) (next : T → Mutation (PageRankHalt S) P U) :
    (checked (.ok value) >>= next) = next value := rfl

/-- Adding a share changes the value of one slot. -/
theorem Fills.add {S : Type} [Field S] {bound : Nat} {slots : List S} {values : Nat → S}
    (fills : Fills bound slots values) {index : Nat} (inBound : index < bound) (share : S) :
    addAt index share slots = (.ok (), slots.set index (values index + share)) ∧
      Fills bound (slots.set index (values index + share))
        (Function.update values index (values index + share)) := by
  obtain ⟨wrote, after⟩ := fills.write inBound (values index + share) (S := S)
  refine ⟨?_, after⟩
  rw [addAt, Mutation.read_bind, bind_run (fills.read inBound slots)]
  exact wrote

variable {S E P : Type} {bound : Nat} {visible : List UInt8} {seen : Nat → Prop}
  [DecidablePred seen]

theorem isVisible_run (marks : Marks bound visible seen) {index : Nat} (inBound : index < bound)
    (state : P) : (isVisible visible index : Mutation (PageRankHalt S) P Bool) state =
      (.ok (decide (seen index)), state) := by
  rw [isVisible, bind_run (marks.read inBound state)]
  by_cases shown : seen index <;> simp [shown]

variable [Field S]

/-- What entries with visible targets send to a state. -/
def sent (seen : Nat → Prop) [DecidablePred seen] (index : E → Nat) (gain : E → S)
    (entries : List E) (state : Nat) : S :=
  (entries.map fun entry => if seen (index entry) ∧ index entry = state then gain entry else 0).sum

/-- What entries with visible targets have in all. -/
def total (seen : Nat → Prop) [DecidablePred seen] (index : E → Nat) (gain : E → S)
    (entries : List E) : S :=
  (entries.map fun entry => if seen (index entry) then gain entry else 0).sum

theorem sent_append (index : E → Nat) (gain : E → S) (entries : List E) (entry : E) (state : Nat) :
    sent seen index gain (entries ++ [entry]) state = sent seen index gain entries state +
      if seen (index entry) ∧ index entry = state then gain entry else 0 := by
  simp [sent]

theorem total_append (index : E → Nat) (gain : E → S) (entries : List E) (entry : E) :
    total seen index gain (entries ++ [entry]) =
      total seen index gain entries + if seen (index entry) then gain entry else 0 := by
  simp [total]

variable {entries : List E} {target : E → Except (PageRankError S) Nat} {index : E → Nat}
  (marks : Marks bound visible seen) (targets : ∀ entry ∈ entries, target entry = .ok (index entry))
  (inBound : ∀ entry ∈ entries, index entry < bound)
include marks targets inBound

/-- Adding shares adds to each state what is sent to it. -/
theorem addShares_run {amount : E → Except (PageRankError S) S} {gain : E → S}
    (amounts : ∀ entry ∈ entries, amount entry = .ok (gain entry)) {next : List S}
    {values : Nat → S} (fills : Fills bound next values) : ∃ after,
      addShares entries target visible amount next = (.ok (), after) ∧
        Fills bound after fun state => values state + sent seen index gain entries state := by
  -- What the entries so far send is the invariant; one more adds to one slot, or to none.
  unfold addShares
  refine Mutation.forM_run (fun done slots => Fills bound slots fun state =>
    values state + sent seen index gain done state) ?_ ?_
  · intro done entry rest slots split holds
    have member : entry ∈ entries := by simp [split]
    have within := inBound entry member
    rw [targets entry member, amounts entry member]
    rw [checked_ok_bind, bind_run (isVisible_run marks within slots)]
    by_cases shown : seen (index entry)
    · obtain ⟨wrote, after⟩ := holds.add within (gain entry)
      rw [if_pos (decide_eq_true shown), checked_ok_bind]
      refine ⟨_, wrote, after.congr fun state _ => ?_⟩
      rw [sent_append]
      by_cases same : state = index entry
      · subst same
        rw [Function.update_self, if_pos ⟨shown, rfl⟩, add_assoc]
      · rw [Function.update_of_ne same, if_neg fun both => same both.2.symm, add_zero]
    · rw [if_neg (by simpa using shown)]
      refine ⟨slots, rfl, holds.congr fun state _ => ?_⟩
      rw [sent_append, if_neg fun both => shown both.1, add_zero]
  · refine fills.congr fun state _ => ?_
    rw [sent, List.map_nil, List.sum_nil, add_zero]

omit [Field S] in
/-- The degree counts the entries with visible targets. -/
theorem visibleDegree_run (next : List S) :
    visibleDegree entries target visible next =
      (.ok (entries.countP fun entry => decide (seen (index entry))), next) := by
  -- The slice is read only, so the state of the fold is the one it starts from.
  have counted : ∃ degree after, visibleDegree entries target visible next = (.ok degree, after) ∧
      degree = entries.countP (fun entry => decide (seen (index entry))) ∧ after = next := by
    refine Mutation.foldlM_run (fun done degree after =>
      degree = done.countP (fun entry => decide (seen (index entry))) ∧ after = next) ?_ ⟨rfl, rfl⟩
    rintro done entry rest degree after split ⟨rfl, rfl⟩
    have member : entry ∈ entries := by simp [split]
    rw [targets entry member, checked_ok_bind,
      bind_run (isVisible_run marks (inBound entry member) after), List.countP_append,
      List.countP_singleton]
    by_cases shown : seen (index entry) <;> simp [shown]
  obtain ⟨_, _, ran, rfl, rfl⟩ := counted
  exact ran

/-- The total adds up the weights of the entries with visible targets. -/
theorem weightTotal_run {weight : E → Except (PageRankError S) S} {gain : E → S}
    (weights : ∀ entry ∈ entries, weight entry = .ok (gain entry)) (next : List S) :
    weightTotal entries target weight visible next =
      (.ok (total seen index gain entries), next) := by
  have added : ∃ sum after, weightTotal entries target weight visible next = (.ok sum, after) ∧
      sum = total seen index gain entries ∧ after = next := by
    refine Mutation.foldlM_run (fun done sum after =>
      sum = total seen index gain done ∧ after = next) ?_ ⟨by simp [total], rfl⟩
    rintro done entry rest sum after split ⟨rfl, rfl⟩
    have member : entry ∈ entries := by simp [split]
    rw [targets entry member, weights entry member, checked_ok_bind,
      bind_run (isVisible_run marks (inBound entry member) after), total_append]
    by_cases shown : seen (index entry)
    · rw [if_pos (decide_eq_true shown), if_pos shown]
      exact ⟨_, _, rfl, rfl, rfl⟩
    · rw [if_neg (by simpa using shown), if_neg shown, add_zero]
      exact ⟨_, _, rfl, rfl, rfl⟩
  obtain ⟨_, _, ran, rfl, rfl⟩ := added
  exact ran

end Rows

-- Shares of a row.

section Shares

variable {S E : Type} [Field S] [LinearOrder S]

/-- The share of its rank that a state sends to another, by the weights of its entries. -/
def rowShare (seen : Nat → Prop) [DecidablePred seen] (index : E → Nat) (gain : E → S)
    (entries : List E) (state : Nat) : S :=
  if total seen index gain entries ≤ 0 then 0
  else sent seen index gain entries state / total seen index gain entries

/-- The share of its rank that a state keeps from the visible ones. -/
def rowLeak (seen : Nat → Prop) [DecidablePred seen] (index : E → Nat) (gain : E → S)
    (entries : List E) : S :=
  if total seen index gain entries ≤ 0 then 1 else 0

variable {bound : Nat} {visible : List UInt8} {seen : Nat → Prop} [DecidablePred seen]
  {entries : List E} {target : E → Except (PageRankError S) Nat} {index : E → Nat}

omit [LinearOrder S] in
theorem sent_mul (factor : S) (gain : E → S) (state : Nat) :
    sent seen index (fun entry => factor * gain entry) entries state =
      factor * sent seen index gain entries state := by
  unfold sent
  rw [← List.sum_map_mul_left]
  refine congrArg List.sum (List.map_congr_left fun entry _ => ?_)
  split
  · rfl
  · rw [mul_zero]

/-- What a distribution is to do with any rank of a state. -/
def Distributes (bound : Nat) (distribute : S → Mutation (PageRankHalt S) (List S) S)
    (share : Nat → S) (leak : S) : Prop :=
  ∀ (rank : S) (next : List S) (values : Nat → S), Fills bound next values → ∃ after,
    distribute rank next = (.ok (rank * leak), after) ∧
      Fills bound after fun state => values state + rank * share state

variable
  (marks : Marks bound visible seen) (targets : ∀ entry ∈ entries, target entry = .ok (index entry))
  (inBound : ∀ entry ∈ entries, index entry < bound)
include marks targets inBound

/-- The weighted rule sends shares by the weights. -/
theorem distributeWeighted_run {weight : E → Except (PageRankError S) S} {gain : E → S}
    (weights : ∀ entry ∈ entries, weight entry = .ok (gain entry)) :
    Distributes bound (fun rank => distributeWeighted entries target weight rank visible)
      (rowShare seen index gain entries) (rowLeak seen index gain entries) := by
  intro rank next values fills
  unfold distributeWeighted rowShare rowLeak
  dsimp only
  rw [bind_run (weightTotal_run marks targets inBound weights next)]
  -- A row of no weight leaves all of its rank, and any other none.
  by_cases nothing : total seen index gain entries ≤ 0
  · simp only [if_pos nothing, mul_one, mul_zero, add_zero]
    exact ⟨next, rfl, fills⟩
  · simp only [if_neg nothing, mul_zero]
    have amounts : ∀ entry ∈ entries, (do
        let weight ← weight entry
        return rank * (weight / total seen index gain entries) : Except (PageRankError S) S) =
          .ok (rank / total seen index gain entries * gain entry) := by
      intro entry member
      rw [weights entry member]
      refine congrArg Except.ok ?_
      ring
    obtain ⟨after, ran, holds⟩ := addShares_run marks targets inBound amounts fills
    refine ⟨after, ?_, holds.congr fun state _ => ?_⟩
    · rw [bind_run ran]
      rfl
    · rw [sent_mul]
      ring

variable [IsStrictOrderedRing S]

omit marks targets inBound [LinearOrder S] [IsStrictOrderedRing S] in
/-- Entries that weigh one each have their number in all. -/
theorem total_one : total seen index (fun _ => (1 : S)) entries =
    (entries.countP fun entry => decide (seen (index entry)) : Nat) := by
  induction entries with
  | nil => simp [total]
  | cons entry rest ih =>
    rw [total] at ih ⊢
    rw [List.map_cons, List.sum_cons, ih, List.countP_cons]
    by_cases shown : seen (index entry)
    · simp [shown, add_comm]
    · simp [shown]

/-- The uniform rule sends shares as if every entry had a weight of one. -/
theorem distributeUniform_run {scalar : PageRankScalar S} (exact_ : Exact scalar) :
    Distributes bound (fun rank => distributeUniform scalar entries target rank visible)
      (rowShare seen index (fun _ => 1) entries) (rowLeak seen index (fun _ => 1) entries) := by
  intro rank next values fills
  unfold distributeUniform rowShare rowLeak
  dsimp only
  rw [bind_run (visibleDegree_run marks targets inBound next), total_one, exact_.count]
  generalize entries.countP (fun entry => decide (seen (index entry))) = degree
  -- A state of no degree leaves all of its rank, and any other none.
  by_cases nothing : degree = 0
  · have empty : (degree : S) ≤ 0 := by rw [nothing, Nat.cast_zero]
    simp only [if_pos nothing, if_pos empty, mul_one, mul_zero, add_zero]
    exact ⟨next, rfl, fills⟩
  · have some : ¬ (degree : S) ≤ 0 := by
      rw [not_le]
      exact Nat.cast_pos.mpr (Nat.pos_of_ne_zero nothing)
    simp only [if_neg nothing, if_neg some, mul_zero]
    have amounts : ∀ entry ∈ entries,
        (.ok (rank / degree) : Except (PageRankError S) S) = .ok (rank / degree * 1) := by
      intro _ _
      rw [mul_one]
    obtain ⟨after, ran, holds⟩ := addShares_run marks targets inBound amounts fills
    refine ⟨after, ?_, holds.congr fun state _ => ?_⟩
    · rw [bind_run ran]
      rfl
    · rw [sent_mul]
      ring

end Shares

-- A row sends all of a rank.

section Whole

variable {S E Id : Type} [Field S] {seen : Nat → Prop} [DecidablePred seen] {index : E → Nat}
  {gain : E → S} {entries : List E} {items : List Id} {slot : Id → Nat}

/-- A value at one of several slots is found once. -/
theorem sum_at_slot (distinct : (items.map slot).Nodup) (target : Nat) (value : S) :
    (items.map fun item => if target = slot item then value else 0).sum =
      if target ∈ items.map slot then value else 0 := by
  induction items with
  | nil => rfl
  | cons item rest ih =>
    rw [List.map_cons] at distinct ⊢
    obtain ⟨absent, others⟩ := List.nodup_cons.mp distinct
    rw [List.sum_cons, ih others, List.map_cons]
    by_cases same : target = slot item
    · rw [if_pos same, if_neg (same ▸ absent), if_pos (same ▸ List.mem_cons_self), add_zero]
    · have other : target ∈ slot item :: rest.map slot ↔ target ∈ rest.map slot :=
        List.mem_cons.trans (or_iff_right same)
      rw [if_neg same, zero_add]
      simp only [other]

/-- What is sent to all slots that are seen is the total. -/
theorem sum_sent (distinct : (items.map slot).Nodup)
    (known : ∀ state, seen state ↔ state ∈ items.map slot) :
    (items.map fun item => sent seen index gain entries (slot item)).sum =
      total seen index gain entries := by
  -- Each entry is sent to one slot, where it is counted if it is seen.
  induction entries with
  | nil => simp [sent, total]
  | cons entry rest ih =>
    have head (item : Id) : sent seen index gain (entry :: rest) (slot item) =
        (if index entry = slot item then if seen (index entry) then gain entry else 0 else 0) +
          sent seen index gain rest (slot item) := by
      rw [sent, List.map_cons, List.sum_cons]
      refine congrArg (· + _) ?_
      by_cases same : index entry = slot item
      · simp only [same, and_true, if_true]
      · simp only [same, and_false, if_false]
    simp only [head]
    rw [List.sum_map_add, ih, sum_at_slot distinct, total, total, List.map_cons, List.sum_cons]
    congr 1
    by_cases shown : seen (index entry)
    · rw [if_pos ((known _).mp shown)]
    · rw [if_neg shown, ite_self]

variable [LinearOrder S]

/-- The shares for all slots that are seen and the leak make one. -/
theorem sum_rowShare (distinct : (items.map slot).Nodup)
    (known : ∀ state, seen state ↔ state ∈ items.map slot) :
    (items.map fun item => rowShare seen index gain entries (slot item)).sum +
      rowLeak seen index gain entries = 1 := by
  unfold rowShare rowLeak
  by_cases nothing : total seen index gain entries ≤ 0
  · simp [nothing]
  · simp only [if_neg nothing, div_eq_mul_inv]
    rw [List.sum_map_mul_right, sum_sent distinct known, add_zero]
    exact mul_inv_cancel₀ fun zero => nothing (le_of_eq zero)

variable [IsStrictOrderedRing S] (nonneg : ∀ entry ∈ entries, 0 ≤ gain entry)
include nonneg

theorem rowShare_nonneg (state : Nat) : 0 ≤ rowShare seen index gain entries state := by
  unfold rowShare sent
  split
  case isTrue => exact le_refl 0
  case isFalse some =>
    refine div_nonneg (List.sum_nonneg fun value member => ?_) (le_of_lt (not_le.mp some))
    obtain ⟨entry, inside, rfl⟩ := List.mem_map.mp member
    split
    · exact nonneg entry inside
    · exact le_refl 0

omit nonneg in
theorem rowLeak_nonneg : 0 ≤ rowLeak seen index gain entries := by
  unfold rowLeak
  split
  · exact zero_le_one
  · exact le_refl 0

end Whole

end PageRank

end Oxgraph
