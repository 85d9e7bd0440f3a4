import Mathlib.Algebra.BigOperators.Ring.Finset
import Mathlib.Algebra.Order.BigOperators.Group.Finset
import Mathlib.Algebra.Order.BigOperators.Ring.Finset
import Mathlib.Algebra.Order.Field.Basic
import Mathlib.Tactic.Linarith

/-! Walks with restart over finitely many states, where what leaks restarts too. -/

namespace Oxgraph

open Finset

/-- The parts of its mass that each state sends to others, the part that leaks, and a restart. -/
structure RestartWalk (N S : Type) where
  flow : N → N → S
  leak : N → S
  restart : N → S

namespace RestartWalk

variable {N S : Type} [Field S] (walk : RestartWalk N S) (states : Finset N)

/-- What one step makes of a mass; damping is the part that is not restarted anyway. -/
def step (damping : S) (mass : N → S) (state : N) : S :=
  damping * ∑ source ∈ states, mass source * walk.flow source state +
    (1 - damping + damping * ∑ source ∈ states, mass source * walk.leak source) *
      walk.restart state

/-- The masses from the restart on. -/
def masses (damping : S) : Nat → N → S
  | 0 => walk.restart
  | steps + 1 => walk.step states damping (masses damping steps)

/-- What a state sends to another when its leak restarts. -/
def share (source state : N) : S := walk.flow source state + walk.leak source * walk.restart state

/-- A step spreads a mass by its shares, and restarts what is damped away. -/
theorem step_eq (damping : S) (mass : N → S) (state : N) :
    walk.step states damping mass state =
      damping * ∑ source ∈ states, mass source * walk.share source state +
        (1 - damping) * walk.restart state := by
  have split : ∑ source ∈ states, mass source * walk.share source state =
      ∑ source ∈ states, mass source * walk.flow source state +
        (∑ source ∈ states, mass source * walk.leak source) * walk.restart state := by
    rw [sum_mul, ← sum_add_distrib]
    refine sum_congr rfl fun source _ => ?_
    rw [share]
    ring
  rw [step, split]
  ring

variable [LinearOrder S]

/-- How far two masses are apart over all states. -/
def distance (mass other : N → S) : S := ∑ state ∈ states, |mass state - other state|

/-- Nothing is negative, what a state sends and leaks is all it has, and restarts add up to one. -/
structure Stochastic : Prop where
  flow : ∀ source ∈ states, ∀ state ∈ states, 0 ≤ walk.flow source state
  leak : ∀ source ∈ states, 0 ≤ walk.leak source
  whole : ∀ source ∈ states, ∑ state ∈ states, walk.flow source state + walk.leak source = 1
  restart : ∀ state ∈ states, 0 ≤ walk.restart state
  total : ∑ state ∈ states, walk.restart state = 1

variable [IsStrictOrderedRing S] {walk states} (stochastic : walk.Stochastic states)
include stochastic

namespace Stochastic

theorem share_nonneg {source state : N} (from_ : source ∈ states) (inside : state ∈ states) :
    0 ≤ walk.share source state :=
  add_nonneg (stochastic.flow source from_ state inside)
    (mul_nonneg (stochastic.leak source from_) (stochastic.restart state inside))

omit [IsStrictOrderedRing S] in
/-- The shares of a state add up to one. -/
theorem sum_share {source : N} (from_ : source ∈ states) :
    ∑ state ∈ states, walk.share source state = 1 := by
  calc ∑ state ∈ states, walk.share source state
      = ∑ state ∈ states, walk.flow source state +
          walk.leak source * ∑ state ∈ states, walk.restart state := by
        rw [mul_sum, ← sum_add_distrib]
        rfl
    _ = 1 := by rw [stochastic.total, mul_one, stochastic.whole source from_]

omit [IsStrictOrderedRing S] in
/-- Spreading a mass by shares keeps its sum. -/
theorem sum_spread (mass : N → S) :
    ∑ state ∈ states, ∑ source ∈ states, mass source * walk.share source state =
      ∑ source ∈ states, mass source := by
  rw [sum_comm]
  refine sum_congr rfl fun source from_ => ?_
  rw [← mul_sum, stochastic.sum_share from_, mul_one]

omit [IsStrictOrderedRing S] in
/-- A step keeps a mass of one. -/
theorem sum_step (damping : S) {mass : N → S} (one : ∑ state ∈ states, mass state = 1) :
    ∑ state ∈ states, walk.step states damping mass state = 1 := by
  simp only [step_eq, sum_add_distrib, ← mul_sum]
  rw [stochastic.sum_spread, one, stochastic.total]
  ring

/-- A step keeps a mass non-negative. -/
theorem step_nonneg {damping : S} (some : 0 ≤ damping) (most : damping ≤ 1) {mass : N → S}
    (nonneg : ∀ state ∈ states, 0 ≤ mass state) {state : N} (inside : state ∈ states) :
    0 ≤ walk.step states damping mass state := by
  rw [step_eq]
  refine add_nonneg (mul_nonneg some (sum_nonneg fun source from_ => ?_)) ?_
  · exact mul_nonneg (nonneg source from_) (stochastic.share_nonneg from_ inside)
  · exact mul_nonneg (sub_nonneg.mpr most) (stochastic.restart state inside)

/-- A step brings masses together by the damping. -/
theorem distance_step_le {damping : S} (some : 0 ≤ damping) (mass other : N → S) :
    distance states (walk.step states damping mass) (walk.step states damping other) ≤
      damping * distance states mass other := by
  unfold distance
  -- The restarts cancel, and the shares of a difference are the difference of the shares.
  have apart (state : N) : walk.step states damping mass state -
      walk.step states damping other state =
        damping * ∑ source ∈ states, (mass source - other source) * walk.share source state := by
    simp only [step_eq, sub_mul, sum_sub_distrib]
    ring
  calc ∑ state ∈ states, |walk.step states damping mass state -
          walk.step states damping other state|
      = damping * ∑ state ∈ states,
          |∑ source ∈ states, (mass source - other source) * walk.share source state| := by
        rw [mul_sum]
        refine sum_congr rfl fun state _ => ?_
        rw [apart, abs_mul, abs_of_nonneg some]
    _ ≤ damping * ∑ state ∈ states, ∑ source ∈ states,
          |mass source - other source| * walk.share source state := by
        refine mul_le_mul_of_nonneg_left (sum_le_sum fun state inside => ?_) some
        refine (abs_sum_le_sum_abs _ _).trans (sum_le_sum fun source from_ => ?_)
        rw [abs_mul, abs_of_nonneg (stochastic.share_nonneg from_ inside)]
    _ = damping * ∑ state ∈ states, |mass state - other state| := by
        rw [stochastic.sum_spread fun state => |mass state - other state|]

omit [IsStrictOrderedRing S] in
/-- Every mass from the restart on adds up to one. -/
theorem sum_masses (damping : S) (steps : Nat) :
    ∑ state ∈ states, walk.masses states damping steps state = 1 := by
  induction steps with
  | zero => exact stochastic.total
  | succ steps ih => exact stochastic.sum_step damping ih

/-- Every mass from the restart on is non-negative. -/
theorem masses_nonneg {damping : S} (some : 0 ≤ damping) (most : damping ≤ 1) (steps : Nat) :
    ∀ state ∈ states, 0 ≤ walk.masses states damping steps state := by
  induction steps with
  | zero => exact stochastic.restart
  | succ steps ih => exact fun state inside => stochastic.step_nonneg some most ih inside

/-- The distances between successive masses shrink by the damping. -/
theorem distance_masses_le {damping : S} (some : 0 ≤ damping) (steps : Nat) :
    distance states (walk.masses states damping (steps + 2))
        (walk.masses states damping (steps + 1)) ≤
      damping * distance states (walk.masses states damping (steps + 1))
        (walk.masses states damping steps) :=
  stochastic.distance_step_le some _ _

end Stochastic

end RestartWalk

end Oxgraph
