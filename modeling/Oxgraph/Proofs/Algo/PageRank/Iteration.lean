import Mathlib.Data.Nat.Find
import Oxgraph.Lib.RestartWalk
import Oxgraph.Proofs.Algo.PageRank.States

/-! Rounds that step a walk with restart: what they report, and what the loop makes of it. -/

namespace Oxgraph

namespace PageRank

variable {S P : Type} [LinearOrder S] {config : PageRankConfig S} {delta : Nat → S}

/-- Some move is close enough within the iterations, or none is. -/
theorem exists_reports (config : PageRankConfig S) (delta : Nat → S) :
    ∃ outcome last, Reports config delta outcome last := by
  -- The first close move is where a run converges.
  by_cases close : ∃ count, count < config.maxIterations ∧ delta count ≤ config.tolerance
  · obtain ⟨within, near⟩ := Nat.find_spec close
    refine ⟨_, _, .converged (Nat.find close) within (fun earlier less => ?_) near⟩
    have far := Nat.find_min close less
    exact not_le.mp fun near => far ⟨Nat.lt_trans less within, near⟩
  · refine ⟨_, _, .exhausted fun earlier within => ?_⟩
    exact not_le.mp fun near => close ⟨earlier, within, near⟩

section

variable {round : Mutation (PageRankHalt S) P S} {Tracks : P → Nat → Prop}
  (next : ∀ before count, Tracks before count → ∃ after,
    round before = (.ok (delta count), after) ∧ Tracks after (count + 1))
include next

omit [LinearOrder S] in
/-- So many rounds report the moves so far. -/
theorem deltas_run {start : P} (first : Tracks start 0) (count : Nat) : ∃ after,
    deltas round count start = (.ok ((List.range count).map delta), after) ∧
      Tracks after count := by
  induction count with
  | zero => exact ⟨start, rfl, first⟩
  | succ count ih =>
    obtain ⟨middle, earlier, tracked⟩ := ih
    obtain ⟨after, moved, last⟩ := next middle count tracked
    refine ⟨after, ?_, last⟩
    rw [deltas, Mutation.bind_run earlier, Mutation.bind_run moved, List.range_succ,
      List.map_append]
    rfl

/-- The loop ends where its moves say, and tracks the rounds it ran. -/
theorem iterate_run {outcome : Except (PageRankHalt S) (PageRankReport S)} {last : Nat}
    (reports : Reports config delta outcome last) {left done : Nat} {before : P} {lastDelta : S}
    (rounds : done + left = config.maxIterations)
    (far : ∀ earlier < done, config.tolerance < delta earlier)
    (latest : left = 0 → lastDelta = delta (config.maxIterations - 1))
    (tracks : Tracks before done) : ∃ after,
      iterate round config (done + 1) left lastDelta before = (outcome, after) ∧
        Tracks after last := by
  -- The induction is on the iterations left; none of those done was close.
  induction left generalizing done before lastDelta with
  | zero =>
    rw [Nat.add_zero] at rounds
    cases reports with
    | converged count within _ close =>
      exact absurd close (not_le.mpr (far count (rounds ▸ within)))
    | exhausted =>
      refine ⟨before, ?_, rounds ▸ tracks⟩
      rw [iterate, latest rfl]
      rfl
  | succ left ih =>
    obtain ⟨after, moved, tracked⟩ := next before done tracks
    rw [iterate, Mutation.bind_run moved]
    by_cases near : delta done ≤ config.tolerance
    · rw [if_pos near]
      cases reports with
      | converged count within earlier close =>
        -- The first close move is this one.
        have same : count = done := by
          rcases Nat.lt_trichotomy count done with less | same | more
          · exact absurd close (not_le.mpr (far count less))
          · exact same
          · exact absurd near (not_le.mpr (earlier done more))
        subst same
        exact ⟨after, rfl, tracked⟩
      | exhausted all => exact absurd near (not_le.mpr (all done (by omega)))
    · rw [if_neg near]
      refine ih (by omega) (fun earlier less => ?_) (fun none_ => ?_) tracked
      · rcases Nat.lt_succ_iff_lt_or_eq.mp less with before | rfl
        · exact far earlier before
        · exact not_le.mp near
      · congr
        omega

variable (Tracks) in
/-- A start that tracks no rounds, and a loop after it, show what is tracked. -/
theorem shows_of_tracks {start : Mutation (PageRankHalt S) P Unit} {infinity : S}
    {rank : P → Nat → Option S} {bound : Nat} {ranks : Nat → Nat → S}
    {outcome : Except (PageRankHalt S) (PageRankReport S)} {last : Nat}
    (reports : Reports config delta outcome last) (some : config.maxIterations ≠ 0)
    (tells : ∀ after count, Tracks after count →
      ∀ state < bound, rank after state = Option.some (ranks count state)) {buffers : P}
    (starts : ∃ after, start buffers = (.ok (), after) ∧ Tracks after 0) :
    Shows start round (start >>= fun _ => iterate round config 1 config.maxIterations infinity)
      rank bound ranks delta outcome last buffers := by
  obtain ⟨begun, ran, first⟩ := starts
  constructor
  · intro count
    obtain ⟨after, moved, tracked⟩ := deltas_run next first count
    exact ⟨after, by rw [Mutation.bind_run ran, moved], tells after count tracked⟩
  · obtain ⟨after, ended, tracked⟩ := iterate_run next reports (Nat.zero_add _)
      (fun _ never => absurd never (Nat.not_lt_zero _)) (fun none_ => absurd none_ some) first
    exact ⟨after, by rw [Mutation.bind_run ran]; exact ended, tells after last tracked⟩

end

-- What the ranks that are tracked have.

section

variable {N : Type} [Field S] [DecidableEq N] {items : List N} {slot : N → Nat}
  (distinct : (items.map slot).Nodup)
include distinct

omit [LinearOrder S] in
/-- A sum over listed states is one over the set of them. -/
theorem sum_listed {listing : List N} (same : listing.Perm items) (value : N → S) :
    (listing.map value).sum = ∑ item ∈ items.toFinset, value item := by
  rw [List.sum_toFinset _ (List.Nodup.of_map _ distinct)]
  exact (same.map value).sum_eq

/-- Masses of a stochastic walk, laid at distinct slots, are distributions whose moves shrink. -/
theorem contracts_of_stochastic [IsStrictOrderedRing S] {walk : RestartWalk N S}
    (stochastic : walk.Stochastic items.toFinset) {damping : S} (some : 0 ≤ damping)
    (most : damping ≤ 1) :
    Contracts damping (items.map slot)
      (fun count => lay items slot (walk.masses items.toFinset damping count))
      (fun count => RestartWalk.distance items.toFinset
        (walk.masses items.toFinset damping (count + 1))
        (walk.masses items.toFinset damping count)) := by
  -- What is laid at the slots are the masses, for which all of this is known.
  have listed (value : N → S) : (items.map value).sum = ∑ item ∈ items.toFinset, value item :=
    sum_listed distinct (List.Perm.refl items) value
  constructor
  case nonneg =>
    intro count state
    refine List.sum_nonneg fun value member => ?_
    obtain ⟨item, inside, rfl⟩ := List.mem_map.mp member
    split
    · exact stochastic.masses_nonneg some most count item (List.mem_toFinset.mpr inside)
    · exact le_refl 0
  case hidden => exact fun count state hidden => lay_hidden _ hidden
  case total =>
    intro count
    have laid : (items.map slot).map (lay items slot (walk.masses items.toFinset damping count)) =
        items.map (walk.masses items.toFinset damping count) := by
      rw [List.map_map]
      exact List.map_congr_left fun item inside => lay_at distinct _ inside
    rw [laid, listed]
    exact stochastic.sum_masses damping count
  case moves =>
    intro count
    rw [List.map_map, RestartWalk.distance, ← listed]
    refine congrArg List.sum (List.map_congr_left fun item inside => ?_)
    dsimp only [Function.comp_apply]
    rw [lay_at distinct _ inside, lay_at distinct _ inside]
  case shrinks => exact stochastic.distance_masses_le some

end

end PageRank

end Oxgraph
