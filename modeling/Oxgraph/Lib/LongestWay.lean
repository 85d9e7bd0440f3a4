import Mathlib.Data.List.Chain
import Oxgraph.Lib.Kahn

/-! Longest ways through an order in which all edges go forward, by relaxing the rows in turn. -/

namespace Oxgraph

variable {N : Type}

section Spec

variable [DecidableEq N]

end Spec

namespace Relaxation

/-- The best length to each node, the node before it, and the end of the best way so far. -/
structure Relaxed (N : Type) where
  lengths : N → Nat
  predecessor : N → Option N
  bestEnd : Option N
  bestLength : Nat

/-- Nothing has been relaxed. -/
def Relaxed.start : Relaxed N :=
  { lengths := fun _ => 0, predecessor := fun _ => none, bestEnd := none, bestLength := 0 }

/-- The end of the best way is a node whose length exceeds that of all nodes before. -/
def Relaxed.offer (state : Relaxed N) (node : N) : Relaxed N :=
  if state.bestEnd = none ∨ state.bestLength < state.lengths node then
    { state with bestEnd := some node, bestLength := state.lengths node }
  else state

/-- Goes back from a node to the one before it as long as there is one. -/
def backtrack (predecessor : N → Option N) : Nat → Option N → List N → Option (List N)
  | 0, _, _ => none
  | _ + 1, none, path => some path
  | fuel + 1, some node, path => backtrack predecessor fuel (predecessor node) (path ++ [node])

variable [DecidableEq N]

/-- An edge from a node of some length improves that of its target, if it is longer. -/
def Relaxed.relax (node : N) (length : Nat) (state : Relaxed N) (target : N) : Relaxed N :=
  if state.lengths target < length + 1 then
    { state with
      lengths := Function.update state.lengths target (length + 1)
      predecessor := Function.update state.predecessor target (some node) }
  else state

/-- Offers a node as the end of the best way, and relaxes its row. -/
def Relaxed.visit (row : N → List N) (state : Relaxed N) (node : N) : Relaxed N :=
  (row node).foldl (Relaxed.relax node (state.lengths node)) (state.offer node)

/-- Relaxing an edge improves its target if that is not as far, and nothing else. -/
theorem relax_eq (node : N) (length : Nat) (state : Relaxed N) (head : N) :
    state.relax node length head =
      { state with
        lengths := fun target =>
          if target = head ∧ state.lengths target < length + 1 then length + 1
          else state.lengths target
        predecessor := fun target =>
          if target = head ∧ state.lengths target < length + 1 then some node
          else state.predecessor target } := by
  have improved {T : Type} (values : N → T) (value : T) :
      (if state.lengths head < length + 1 then Function.update values head value else values) =
        fun target =>
          if target = head ∧ state.lengths target < length + 1 then value else values target := by
    funext target
    by_cases same : target = head
    · subst same
      split <;> simp [*]
    · split <;> simp [same]
  rw [← improved state.lengths, ← improved state.predecessor]
  unfold Relaxed.relax
  split <;> rfl

/-- Relaxing a row improves the targets that are not as far, and nothing else. -/
theorem foldl_relax (node : N) (length : Nat) (state : Relaxed N) (targets : List N) :
    targets.foldl (Relaxed.relax node length) state =
      { state with
        lengths := fun target =>
          if target ∈ targets ∧ state.lengths target < length + 1 then length + 1
          else state.lengths target
        predecessor := fun target =>
          if target ∈ targets ∧ state.lengths target < length + 1 then some node
          else state.predecessor target } := by
  induction targets generalizing state with
  | nil => simp
  | cons head rest ih =>
    rw [List.foldl_cons, ih, relax_eq]
    -- A target that comes again in the rest is as far already.
    congr 1
    · funext target
      by_cases same : target = head
      · subst same
        by_cases shorter : state.lengths target < length + 1 <;> simp [shorter]
      · simp [same]
    · funext target
      by_cases same : target = head
      · subst same
        by_cases shorter : state.lengths target < length + 1 <;> simp [shorter]
      · simp [same]

/-- What holds of the best lengths once the rows of the first nodes have been relaxed. -/
structure Explored (row : N → List N) (done : List N) (state : Relaxed N) : Prop where
  relaxed : ∀ source ∈ done, ∀ target ∈ row source,
    state.lengths source + 1 ≤ state.lengths target
  start : ∀ target, state.predecessor target = none → state.lengths target = 0
  before : ∀ target source, state.predecessor target = some source →
    source ∈ done ∧ target ∈ row source ∧ state.lengths target = state.lengths source + 1 ∧
      ∀ other ∈ done, target ∈ row other → done.idxOf other < done.idxOf source →
        state.lengths other < state.lengths source
  none : state.bestEnd = none → done = [] ∧ state.bestLength = 0
  best : ∀ last, state.bestEnd = some last → last ∈ done ∧ state.lengths last = state.bestLength ∧
    ∀ other ∈ done, state.lengths other ≤ state.bestLength ∧
      (done.idxOf other < done.idxOf last → state.lengths other < state.bestLength)

/-- At first nothing has been explored. -/
theorem Explored.nil (row : N → List N) : Explored row [] .start :=
  ⟨fun _ none => (nomatch none), fun _ _ => rfl, fun _ _ none => (nomatch none),
    fun _ => ⟨rfl, rfl⟩, fun _ none => (nomatch none)⟩

omit [DecidableEq N] in
/-- Offering an end changes no length. -/
theorem offer_lengths (state : Relaxed N) (node : N) :
    (state.offer node).lengths = state.lengths ∧
      (state.offer node).predecessor = state.predecessor := by
  unfold Relaxed.offer
  split <;> exact ⟨rfl, rfl⟩

/-- In a longer list the nodes of a list have the positions that they have in it. -/
theorem idxOf_push {done : List N} {node : N} (fresh : node ∉ done) :
    (∀ other ∈ done, (done ++ [node]).idxOf other = done.idxOf other) ∧
      (done ++ [node]).idxOf node = done.length := by
  refine ⟨fun other member => List.idxOf_append_of_mem member, ?_⟩
  rw [List.idxOf_append_of_notMem fresh, List.idxOf_cons_self, Nat.add_zero]

section Visit

variable {row : N → List N} {done : List N} {state : Relaxed N} {node : N}

/-- What a visit makes of the lengths and of the nodes before. -/
theorem visit_eq (state : Relaxed N) (row : N → List N) (node : N) (target : N) :
    (target ∈ row node ∧ state.lengths target < state.lengths node + 1 ∧
      (state.visit row node).lengths target = state.lengths node + 1 ∧
      (state.visit row node).predecessor target = some node) ∨
    ((target ∈ row node → state.lengths node + 1 ≤ state.lengths target) ∧
      (state.visit row node).lengths target = state.lengths target ∧
      (state.visit row node).predecessor target = state.predecessor target) := by
  obtain ⟨lengths, predecessor⟩ := offer_lengths state node
  unfold Relaxed.visit
  rw [foldl_relax, lengths, predecessor]
  by_cases improved : target ∈ row node ∧ state.lengths target < state.lengths node + 1
  · refine .inl ⟨improved.1, improved.2, ?_, ?_⟩
    · exact if_pos improved
    · exact if_pos improved
  · refine .inr ⟨fun member => ?_, if_neg improved, if_neg improved⟩
    exact Nat.not_lt.mp fun shorter => improved ⟨member, shorter⟩

/-- The best end after a visit is the one that was offered. -/
theorem visit_best (state : Relaxed N) (row : N → List N) (node : N) :
    (state.visit row node).bestEnd = (state.offer node).bestEnd ∧
      (state.visit row node).bestLength = (state.offer node).bestLength := by
  unfold Relaxed.visit
  rw [foldl_relax]
  exact ⟨rfl, rfl⟩

/-- A node that is to be the best end is farther than every node before. -/
theorem Explored.exceeds (explored : Explored row done state)
    (better : state.bestEnd = Option.none ∨ state.bestLength < state.lengths node) :
    ∀ other ∈ done, state.lengths other < state.lengths node := by
  intro other inside
  have some : done ≠ [] := List.ne_nil_of_mem inside
  -- There is a best end already, and it is as far as any.
  cases best : state.bestEnd with
  | none => exact absurd (explored.none best).1 some
  | some leader =>
    have less := better.resolve_left (by rw [best]; exact Option.some_ne_none leader)
    exact Nat.lt_of_le_of_lt ((explored.best leader best).2.2 other inside).1 less

/-- Visiting a node whose row leads back to none of the visited nodes explores it. -/
theorem Explored.visit (explored : Explored row done state) (fresh : node ∉ done)
    (back : ∀ earlier ∈ done ++ [node], earlier ∉ row node) :
    Explored row (done ++ [node]) (state.visit row node) := by
  obtain ⟨positions, position⟩ := idxOf_push fresh
  -- No edge leads back, so the lengths of visited nodes stay.
  have kept {earlier : N} (member : earlier ∈ done ++ [node]) :
      (state.visit row node).lengths earlier = state.lengths earlier := by
    rcases visit_eq state row node earlier with ⟨inside, _⟩ | ⟨_, same, _⟩
    · exact absurd inside (back earlier member)
    · exact same
  have grown (target : N) : state.lengths target ≤ (state.visit row node).lengths target := by
    rcases visit_eq state row node target with ⟨_, shorter, longer, _⟩ | ⟨_, same, _⟩ <;> omega
  have here : node ∈ done ++ [node] := List.mem_append_right _ List.mem_cons_self
  obtain ⟨bestEnd, bestLength⟩ := visit_best state row node
  constructor
  case relaxed =>
    intro source member target inside
    rw [kept member]
    rcases List.mem_append.mp member with old | new
    · exact Nat.le_trans (explored.relaxed source old target inside) (grown target)
    · rw [List.mem_singleton.mp new] at inside ⊢
      rcases visit_eq state row node target with ⟨_, _, longer, _⟩ | ⟨enough, same, _⟩
      · exact Nat.le_of_eq longer.symm
      · rw [same]
        exact enough inside
  case start =>
    intro target first
    rcases visit_eq state row node target with ⟨_, _, _, improved⟩ | ⟨_, same, unchanged⟩
    · rw [improved] at first
      cases first
    · rw [same]
      exact explored.start target (unchanged.symm.trans first)
  case before =>
    intro target source found
    rcases visit_eq state row node target with ⟨inside, shorter, longer, improved⟩ |
      ⟨_, same, unchanged⟩
    · rw [improved] at found
      cases found
      refine ⟨here, inside, by rw [longer, kept here], fun other member leads earlier => ?_⟩
      rw [position] at earlier
      rcases List.mem_append.mp member with old | new
      · have nearer := explored.relaxed other old target leads
        rw [kept member, kept here]
        omega
      · rw [List.mem_singleton.mp new, position] at earlier
        exact absurd earlier (Nat.lt_irrefl _)
    · rw [unchanged] at found
      obtain ⟨known, inside, length, first⟩ := explored.before target source found
      have inDone := List.idxOf_lt_length_of_mem known
      refine ⟨List.mem_append_left _ known, inside, ?_, fun other member leads earlier => ?_⟩
      · rw [same, kept (List.mem_append_left _ known), length]
      · rw [positions source known] at earlier
        rcases List.mem_append.mp member with old | new
        · rw [positions other old] at earlier
          rw [kept member, kept (List.mem_append_left _ known)]
          exact first other old leads earlier
        · rw [List.mem_singleton.mp new, position] at earlier
          omega
  case none =>
    intro never
    rw [bestEnd] at never
    unfold Relaxed.offer at never
    split at never
    · cases never
    · rename_i worse
      exact absurd (.inl never) worse
  case best =>
    intro last found
    rw [bestEnd] at found
    rw [bestLength]
    unfold Relaxed.offer at found ⊢
    split at found
    · rename_i better
      rw [if_pos better]
      cases found
      refine ⟨here, kept here, fun other member => ?_⟩
      rw [kept member]
      show _ ≤ state.lengths node ∧ (_ → _ < state.lengths node)
      rcases List.mem_append.mp member with old | new
      · have less := explored.exceeds better other old
        exact ⟨Nat.le_of_lt less, fun _ => less⟩
      · rw [List.mem_singleton.mp new]
        exact ⟨Nat.le_refl _, fun earlier => absurd earlier (Nat.lt_irrefl _)⟩
    · rename_i worse
      rw [if_neg worse]
      obtain ⟨known, length, most⟩ := explored.best last found
      refine ⟨List.mem_append_left _ known, ?_, fun other member => ?_⟩
      · rw [kept (List.mem_append_left _ known)]
        exact length
      · rw [kept member, positions last known]
        rcases List.mem_append.mp member with old | new
        · rw [positions other old]
          exact most other old
        · have inDone := List.idxOf_lt_length_of_mem known
          rw [List.mem_singleton.mp new, position]
          refine ⟨Nat.not_lt.mp fun more => worse (.inr more), fun earlier => ?_⟩
          omega

end Visit

section Ways

variable {edge : N → N → Prop} {row : N → List N} {order : List N} {state : Relaxed N}
  (along : Forward edge order)
  (edges : ∀ source target, edge source target ↔
    source ∈ order ∧ target ∈ order ∧ target ∈ row source)
  (explored : Explored row order state)

include edges explored

/-- No way to a node is longer than its best length. -/
theorem length_le {way : List N} (chain : way.IsChain edge) {node : N}
    (last : way.getLast? = some node) : way.length ≤ state.lengths node + 1 := by
  induction way using List.reverseRecOn generalizing node with
  | nil => cases last
  | append_singleton front tail ih =>
    rw [List.getLast?_append, List.getLast?_singleton] at last
    cases last
    obtain ⟨frontChain, _, joined⟩ := List.isChain_append.mp chain
    rw [List.length_append, List.length_singleton]
    cases before : front.getLast? with
    | none =>
      rw [List.getLast?_eq_none_iff.mp before, List.length_nil]
      omega
    | some source =>
      have leads := joined source before tail rfl
      obtain ⟨sourceIn, _, inside⟩ := (edges source tail).mp leads
      have shorter := ih frontChain before
      have longer := explored.relaxed source sourceIn tail inside
      omega

include along

end Ways

end Relaxation

end Oxgraph
