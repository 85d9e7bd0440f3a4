import Oxgraph.Proofs.Algo.Frontiers

/-! Searches over arbitrary ids, searches over scratch with any history, and their agreement. -/

namespace Oxgraph

-- Sets of arbitrary ids.

/-- A visited set tells what was inserted. -/
class LawfulVisitedSet (V : Type) (Id : outParam Type) [VisitedSet V Id] where
  holds : V → Id → Prop
  default : ∀ element, ¬ holds VisitedSet.default element
  added : ∀ visited element, (VisitedSet.insert visited element).1 = true ↔ ¬ holds visited element
  insert : ∀ visited element other,
    holds (VisitedSet.insert visited element).2 other ↔ other = element ∨ holds visited other

instance {Id : Type} [Ord Id] [Std.TransOrd Id] [Std.LawfulEqOrd Id] :
    LawfulVisitedSet (BTreeSet Id) Id where
  holds visited element := element ∈ visited
  default element := Std.ExtTreeSet.not_mem_empty
  added visited element := by
    show decide (¬ visited.contains element = true) = true ↔ _
    rw [decide_eq_true_iff, Std.ExtTreeSet.contains_iff_mem]
  insert visited element other := by
    show other ∈ visited.insert element ↔ _
    rw [Std.ExtTreeSet.mem_insert, Std.LawfulEqOrd.compare_eq_iff_eq, eq_comm]

instance {Id : Type} [BEq Id] [Hashable Id] [LawfulBEq Id] :
    LawfulVisitedSet (Std.ExtHashSet Id) Id where
  holds visited element := element ∈ visited
  default element := Std.ExtHashSet.not_mem_empty
  added visited element := by
    show decide (¬ visited.contains element = true) = true ↔ _
    rw [decide_eq_true_iff, Std.ExtHashSet.contains_iff_mem]
  insert visited element other := by
    show other ∈ visited.insert element ↔ _
    rw [Std.ExtHashSet.mem_insert, beq_iff_eq, eq_comm]

namespace Bfs

variable {Id : Type}

namespace Generic

variable {V : Type} [VisitedSet V Id] [LawfulVisitedSet V Id]

/-- The set and the queue track what has been found. -/
structure Tracking (state : GenericState Id V) (nodes : List Id) (head : Nat) : Prop where
  visited : ∀ element, LawfulVisitedSet.holds state.visited element ↔ element ∈ nodes
  queue : state.queue = nodes.drop head
  within : head ≤ nodes.length

/-- The policy tracks what has been found, whether or not elements are contained. -/
theorem tracks [DecidableEq Id] (graph : TopologyView Id) :
    Tracks graph (fun _ => True) (Tracking : GenericState Id V → List Id → Nat → Prop) := by
  constructor
  case pop =>
    intro state nodes head tracked
    obtain ⟨visited, queue, within⟩ := tracked
    -- The queue is the nodes not yet popped: none are left exactly at the end.
    rcases Nat.lt_or_eq_of_le within with below | rfl
    · have read := queue.trans (List.drop_eq_getElem_cons below)
      have popped : BfsStep.pop state =
          (.ok (some nodes[head]), { state with queue := nodes.drop (head + 1) }) := by
        simp only [BfsStep.pop, Mutation.read_bind, read]
        rfl
      rw [List.getElem?_eq_getElem below, Nat.min_eq_left below]
      exact ⟨_, popped, visited, rfl, below⟩
    · have read := queue.trans List.drop_length
      have popped : BfsStep.pop state = (.ok none, state) := by
        simp only [BfsStep.pop, Mutation.read_bind, read]
        rfl
      rw [List.getElem?_eq_none (Nat.le_refl _), Nat.min_eq_right (Nat.le_succ _)]
      exact ⟨state, popped, visited, queue, Nat.le_refl _⟩
  case push =>
    intro state nodes head target tracked _
    obtain ⟨visited, queue, within⟩ := tracked
    refine ⟨_, rfl, ?_⟩
    have added := LawfulVisitedSet.added state.visited target
    have inserted := LawfulVisitedSet.insert state.visited target
    unfold enterNode
    constructor
    · intro element
      refine (inserted element).trans ?_
      rw [visited]
      split <;> grind
    · show (if (VisitedSet.insert state.visited target).1 = true then state.queue ++ [target]
        else state.queue) = _
      by_cases there : target ∈ nodes
      · rw [if_pos there, if_neg, queue]
        exact fun new => added.mp new ((visited target).mpr there)
      · rw [if_neg there, if_pos (added.mpr (mt (visited target).mp there)), queue,
          List.drop_append_of_le_length within]
    · split
      · exact within
      · rw [List.length_append]
        omega

/-- A search over a set yields the breadth-first order. -/
theorem yields [DecidableEq Id] (graph : TopologyView Id) (direction : ExpansionDirection)
    (start : Id) : Yields graph direction (GenericState.new start : GenericState Id V)
      (breadthFirst (direction.expand graph) start) := by
  refine (tracks graph).yields trivial (fun _ _ _ => trivial) ?_
  refine ⟨fun element => ?_, rfl, Nat.zero_le _⟩
  refine (LawfulVisitedSet.insert VisitedSet.default start element).trans ?_
  rw [List.mem_singleton, or_iff_left (LawfulVisitedSet.default element)]

end Generic

-- Scratch and workspaces, whatever they were used for.

variable {graph : TopologyView Id} {start : Id}

/-- A contained start of a lawful view is validated. -/
theorem validatedStart_ok (lawful : graph.Lawful) (contained : graph.containsElement start = true) :
    ValidatedStart.new graph start = .ok ⟨graph.elementIndex start, graph.elementBound⟩ := by
  have inside := lawful.indexed contained
  unfold ValidatedStart.new
  simp only [contained, not_true_eq_false, if_false]
  rw [if_neg (Nat.not_le.mpr inside)]

/-- A contained start is validated over scratch that fits the bound. -/
theorem validatedScratch_ok (lawful : graph.Lawful)
    (contained : graph.containsElement start = true) {visitedLen queueLen : Nat}
    (visitedFits : graph.elementBound ≤ visitedLen) (queueFits : graph.elementBound ≤ queueLen) :
    ValidatedScratch.new graph start visitedLen queueLen =
      .ok ⟨graph.elementIndex start, graph.elementBound⟩ := by
  unfold ValidatedScratch.new
  simp only
  rw [if_neg (Nat.not_lt.mpr visitedFits), if_neg (Nat.not_lt.mpr queueFits)]
  exact validatedStart_ok lawful contained

/-- A queue slice that the start is seated in holds it in front. -/
theorem queued_start (lawful : graph.Lawful) (contained : graph.containsElement start = true)
    {queue : List Id} (fits : graph.elementBound ≤ queue.length) :
    Queued graph (queue.set 0 start) [start] 0 1 := by
  have inside := lawful.indexed contained
  have empty : Queued graph queue [] 0 0 := ⟨fits, List.nil_prefix, rfl, Nat.le_refl _⟩
  exact empty.push (by rw [List.length_nil]; omega) start

/-- A lawful view expands contained elements to contained elements. -/
theorem closed (lawful : graph.Lawful) (direction : ExpansionDirection) {element : Id}
    (contained : graph.containsElement element = true) :
    ∀ target ∈ direction.expand graph element, graph.containsElement target = true := by
  cases direction with
  | forward => exact lawful.successors contained
  | reverse => exact lawful.predecessors contained

/-- Byte-flag scratch yields the breadth-first order, whatever it holds. -/
theorem scratch_yields [DecidableEq Id] (lawful : graph.Lawful) (direction : ExpansionDirection)
    (contained : graph.containsElement start = true) {visited : List UInt8} {queue : List Id}
    (visitedFits : graph.elementBound ≤ visited.length)
    (queueFits : graph.elementBound ≤ queue.length) : ∃ frontier,
      breadthFirstSearchWithScratch graph start visited queue = .ok frontier ∧
        Yields graph direction frontier (breadthFirst (direction.expand graph) start) := by
  unfold breadthFirstSearchWithScratch
  rw [validatedScratch_ok lawful contained visitedFits queueFits]
  refine ⟨_, rfl, (SeededByteFlag.tracks lawful).yields contained (closed lawful direction) ?_⟩
  have cleared : Marks graph (· = (0 : UInt8))
      (List.replicate graph.elementBound 0 ++ visited.drop graph.elementBound) [] := by
    apply Marks.nothing lawful
    · rw [List.length_append, List.length_replicate]
      exact Nat.le_add_right _ _
    · intro index slot inside read
      rw [List.getElem?_append_left (by rw [List.length_replicate]; exact inside)] at read
      exact List.eq_of_mem_replicate (List.mem_of_getElem? read)
  exact ⟨.start contained, cleared.visit lawful contained (by decide),
    queued_start lawful contained queueFits, rfl⟩

/-- Freshly allocated storage yields the breadth-first order. -/
theorem owned_yields [DecidableEq Id] (lawful : graph.Lawful) (direction : ExpansionDirection)
    (contained : graph.containsElement start = true) : ∃ frontier,
      breadthFirstSearch graph start = .ok frontier ∧
        Yields graph direction frontier (breadthFirst (direction.expand graph) start) := by
  unfold breadthFirstSearch
  rw [validatedStart_ok lawful contained]
  refine ⟨_, rfl, (SeededOwned.tracks lawful).yields contained (closed lawful direction) ?_⟩
  have cleared : Marks graph (· = (0 : UInt8)) (List.replicate graph.elementBound 0) [] := by
    apply Marks.nothing lawful
    · rw [List.length_replicate]
    · intro index slot _ read
      exact List.eq_of_mem_replicate (List.mem_of_getElem? read)
  exact ⟨.start contained, cleared.visit lawful contained (by decide), rfl, Nat.zero_le _, rfl⟩

/-- No mark is past the epoch of the counter. -/
def Settled (marks : List UInt32) (epoch : EpochCounter) : Prop :=
  ∀ mark ∈ marks, mark ≤ epoch.epoch

/-- An advance keeps the slots, and leaves every mark before the new epoch. -/
theorem advance_fresh {counter : EpochCounter} {marks : List UInt32}
    (settled : Settled marks counter) : (counter.advance marks).2.length = marks.length ∧
      ∀ mark ∈ (counter.advance marks).2, mark < (counter.advance marks).1.epoch := by
  unfold EpochCounter.advance
  split
  · -- The wrap clears every mark, and one is past zero.
    refine ⟨List.length_replicate, fun mark member => ?_⟩
    rw [List.eq_of_mem_replicate member]
    show (0 : UInt32) < 1
    decide
  · rename_i more
    refine ⟨rfl, fun mark member => ?_⟩
    have before := settled mark member
    rw [UInt32.lt_iff_toNat_lt, UInt32.toNat_add]
    rw [UInt32.le_iff_toNat_le] at before
    have below := counter.epoch.toNat_lt
    have apart : counter.epoch.toNat ≠ 4294967295 := fun same => more (UInt32.toNat_inj.mp same)
    show mark.toNat < (counter.epoch.toNat + 1) % 2 ^ 32
    omega

/-- Marks before the epoch record that nothing has been found. -/
theorem marks_fresh (lawful : graph.Lawful) {marks : List UInt32} {epoch : UInt32}
    (fits : graph.elementBound ≤ marks.length) (fresh : ∀ mark ∈ marks, mark < epoch) :
    Marks graph (· ≠ epoch) marks [] := by
  apply Marks.nothing lawful fits
  intro index slot _ read same
  have before := fresh slot (List.mem_of_getElem? read)
  rw [same] at before
  exact UInt32.lt_irrefl _ before

/-- Settled epoch scratch yields the breadth-first order. -/
theorem epochScratch_yields [DecidableEq Id] (lawful : graph.Lawful)
    (direction : ExpansionDirection) (contained : graph.containsElement start = true)
    {scratch : BfsEpochScratch Id} (settled : Settled scratch.marks scratch.epoch)
    (marksFit : graph.elementBound ≤ scratch.marks.length)
    (queueFits : graph.elementBound ≤ scratch.queue.length) : ∃ frontier after,
      breadthFirstSearchWithEpochScratch graph start scratch = (.ok frontier, after) ∧
        Yields graph direction frontier (breadthFirst (direction.expand graph) start) := by
  obtain ⟨length, fresh⟩ := advance_fresh settled
  have created : breadthFirstSearchWithEpochScratch graph start scratch =
      (.ok (.new (scratch.epoch.advance scratch.marks).2 scratch.queue
        (scratch.epoch.advance scratch.marks).1.epoch start
        ⟨graph.elementIndex start, graph.elementBound⟩), { scratch with
          epoch := (scratch.epoch.advance scratch.marks).1
          marks := (scratch.epoch.advance scratch.marks).2 }) := by
    unfold breadthFirstSearchWithEpochScratch
    rw [Mutation.bind_apply, Mutation.read]
    simp only
    rw [Mutation.bind_apply, Mutation.lift,
      validatedScratch_ok lawful contained marksFit queueFits]
    rfl
  refine ⟨_, _, created, (SeededEpoch.tracks lawful).yields contained (closed lawful direction) ?_⟩
  have nothing := marks_fresh lawful (by rw [length]; exact marksFit) fresh
  exact ⟨.start contained, nothing.visit lawful contained (not_not.mpr rfl),
    queued_start lawful contained queueFits, rfl⟩

/-- Growing a workspace covers the bound and keeps it settled. -/
theorem ensureElementBound_spec {workspace : BfsWorkspace Id} {bound : Nat}
    (settled : Settled workspace.marks workspace.epoch) :
    bound ≤ (workspace.ensureElementBound bound).marks.length ∧
      Settled (workspace.ensureElementBound bound).marks
        (workspace.ensureElementBound bound).epoch := by
  unfold BfsWorkspace.ensureElementBound
  split
  · rename_i short
    constructor
    · show bound ≤ (workspace.marks ++ _).length
      rw [List.length_append, List.length_replicate]
      omega
    · intro mark member
      rcases List.mem_append.mp member with old | new
      · exact settled mark old
      · rw [List.eq_of_mem_replicate new]
        exact UInt32.zero_le
  · rename_i enough
    exact ⟨Nat.not_lt.mp enough, settled⟩

/-- What creating a search over a workspace returns and leaves. -/
theorem withWorkspace_eq {witness : ValidatedStart}
    (validated : ValidatedStart.new graph start = .ok witness) (workspace : BfsWorkspace Id) :
    breadthFirstSearchWithWorkspace graph start workspace =
      let grown := workspace.ensureElementBound witness.bound
      (.ok (.new (grown.epoch.advance grown.marks).2 (grown.epoch.advance grown.marks).1.epoch
        start witness), { grown with
          epoch := (grown.epoch.advance grown.marks).1
          marks := (grown.epoch.advance grown.marks).2 }) := by
  unfold breadthFirstSearchWithWorkspace
  rw [Mutation.bind_apply, Mutation.lift, validated]
  rfl

/-- A settled workspace yields the breadth-first order. -/
theorem workspace_yields [DecidableEq Id] (lawful : graph.Lawful) (direction : ExpansionDirection)
    (contained : graph.containsElement start = true) {workspace : BfsWorkspace Id}
    (settled : Settled workspace.marks workspace.epoch) : ∃ frontier after,
      breadthFirstSearchWithWorkspace graph start workspace = (.ok frontier, after) ∧
        Yields graph direction frontier (breadthFirst (direction.expand graph) start) := by
  refine ⟨_, _, withWorkspace_eq (validatedStart_ok lawful contained) workspace,
    (SeededWorkspace.tracks lawful).yields contained (closed lawful direction) ?_⟩
  obtain ⟨covers, grown⟩ := @ensureElementBound_spec Id workspace graph.elementBound settled
  obtain ⟨length, fresh⟩ := advance_fresh grown
  have nothing := marks_fresh lawful (by rw [length]; exact covers) fresh
  exact ⟨.start contained, nothing.visit lawful contained (not_not.mpr rfl), rfl, Nat.zero_le _,
    rfl⟩

-- What any use of the scratch keeps.

/-- A relation that the storage policy keeps is kept by every run of the iterator. -/
theorem calls_steps {S : Type} [BfsStep Id S] {step : S → S → Prop}
    (pop : ∀ frontier, (BfsStep.pop : Mutation BfsPanic S _).Steps step frontier)
    (push : ∀ target frontier,
      (BfsStep.tryVisitAndPush graph target : Mutation BfsPanic S _).Steps step frontier)
    (direction : ExpansionDirection) (count : Nat) (frontier : S) :
    (calls graph direction count).Steps step frontier := by
  induction count generalizing frontier with
  | zero => exact .pure []
  | succ count ih =>
    refine .bind (ih frontier) fun results middle _ => .bind ?_ fun _ _ _ => .pure _
    refine .bind (pop middle) fun element popped _ => ?_
    cases element with
    | none => exact .pure none
    | some element =>
      refine .bind (.forM _ fun target _ state => push target state) fun _ _ _ => .pure _

/-- Marks are overwritten by an epoch only. -/
structure Remarked (epoch : UInt32) (after before : List UInt32) : Prop where
  length : after.length = before.length
  marks : ∀ mark ∈ after, mark ∈ before ∨ mark = epoch

theorem Remarked.refl (epoch : UInt32) (marks : List UInt32) : Remarked epoch marks marks :=
  ⟨rfl, fun _ member => .inl member⟩

theorem Remarked.trans {epoch : UInt32} {first second third : List UInt32}
    (before : Remarked epoch second first) (after : Remarked epoch third second) :
    Remarked epoch third first := by
  refine ⟨after.length.trans before.length, fun mark member => ?_⟩
  rcases after.marks mark member with old | new
  · exact before.marks mark old
  · exact .inr new

theorem Remarked.set (epoch : UInt32) (marks : List UInt32) (index : Nat) :
    Remarked epoch (marks.set index epoch) marks := by
  refine ⟨List.length_set, fun mark member => ?_⟩
  exact List.mem_or_eq_of_mem_set member

/-- Marks that are overwritten by the epoch of the counter stay settled. -/
theorem Remarked.settled {counter : EpochCounter} {after before : List UInt32}
    (remarked : Remarked counter.epoch after before) (settled : Settled before counter) :
    Settled after counter := by
  intro mark member
  rcases remarked.marks mark member with old | rfl
  · exact settled mark old
  · exact UInt32.le_refl _

/-- What every step over epoch marks keeps: its epoch, its queue slots, and the marks it leaves. -/
structure Remarking {S : Type} (epoch : S → UInt32) (marks : S → List UInt32) (slots : S → Nat)
    (before after : S) : Prop where
  sameEpoch : epoch after = epoch before
  sameSlots : slots after = slots before
  remarked : Remarked (epoch before) (marks after) (marks before)

section Remarking

variable {S : Type} {epoch : S → UInt32} {marks : S → List UInt32} {slots : S → Nat}

theorem Remarking.refl (state : S) : Remarking epoch marks slots state state :=
  ⟨rfl, rfl, .refl _ _⟩

/-- A run of steps over epoch marks keeps what each step keeps. -/
theorem Remarking.run {E T : Type} {change : Mutation E S T} {start : S}
    (steps : change.Steps (Remarking epoch marks slots) start) :
    Remarking epoch marks slots start (change start).2 := by
  unfold Mutation.Steps at steps
  generalize (change start).2 = after at steps
  induction steps with
  | refl => exact .refl start
  | tail _ step ih =>
    refine ⟨step.sameEpoch.trans ih.sameEpoch, step.sameSlots.trans ih.sameSlots,
      ih.remarked.trans ?_⟩
    rw [← ih.sameEpoch]
    exact step.remarked

end Remarking

/-- A step of an epoch frontier. -/
abbrev EpochStep : SeededEpochFrontier Id → SeededEpochFrontier Id → Prop :=
  Remarking SeededEpochFrontier.epoch SeededEpochFrontier.marks fun frontier =>
    frontier.queue.length

/-- A step of a workspace frontier, whose queue may grow. -/
abbrev WorkspaceStep : SeededWorkspaceFrontier Id → SeededWorkspaceFrontier Id → Prop :=
  Remarking SeededWorkspaceFrontier.epoch SeededWorkspaceFrontier.marks fun _ => 0

/-- A step of a bounded search. -/
abbrev BoundedStep {V : Type} : BoundedRun Id V → BoundedRun Id V → Prop :=
  Remarking BoundedRun.epoch BoundedRun.marks fun run => run.queue.length

/-- Reading a slot of a slice keeps everything. -/
theorem slotOrPanic_steps {T S : Type} {step : S → S → Prop} (slots : List T) (index : Nat)
    (state : S) : (slotOrPanic slots index : Mutation BfsPanic S T).Steps step state := by
  unfold slotOrPanic
  split
  · exact .pure _
  · exact .fail _

theorem epochFrontier_steps (direction : ExpansionDirection) (count : Nat)
    (frontier : SeededEpochFrontier Id) :
    (calls graph direction count).Steps EpochStep frontier := by
  refine calls_steps ?pop ?push direction count frontier
  case pop =>
    intro frontier
    refine .read_bind ?_
    split
    · exact .pure none
    · refine .bind (slotOrPanic_steps _ _ _) fun element _ _ => ?_
      exact .bind (.modify ⟨rfl, rfl, .refl _ _⟩) fun _ _ _ => .pure _
  case push =>
    intro target frontier
    refine .read_bind ?_
    simp only
    split
    · exact .fail _
    · split
      · -- The slot of the target is overwritten by the epoch, and the queue keeps its slots.
        refine .bind (.modify ⟨rfl, rfl, .set _ _ _⟩) fun _ _ _ => ?_
        refine .bind (slotOrPanic_steps _ _ _) fun _ _ _ => ?_
        exact .modify ⟨rfl, List.length_set, .refl _ _⟩
      · exact .pure _

theorem workspaceFrontier_steps (direction : ExpansionDirection) (count : Nat)
    (frontier : SeededWorkspaceFrontier Id) :
    (calls graph direction count).Steps WorkspaceStep frontier := by
  refine calls_steps ?pop ?push direction count frontier
  case pop =>
    intro frontier
    refine .read_bind ?_
    split
    · exact .pure none
    · exact .bind (.modify ⟨rfl, rfl, .refl _ _⟩) fun _ _ _ => .pure _
  case push =>
    intro target frontier
    refine .read_bind ?_
    simp only
    split
    · exact .fail _
    · split
      · exact .modify ⟨rfl, rfl, .set _ _ _⟩
      · exact .pure _

namespace Bounded

open BoundedRun

variable {V : Type} {visit : BfsVisitor Id V}

theorem slot_steps {T : Type} (slots : BoundedRun Id V → List T) (index : Nat)
    (run : BoundedRun Id V) : (slot slots index).Steps BoundedStep run := by
  refine .read_bind ?_
  split
  · exact .pure _
  · exact .fail _

theorem pop_steps (run : BoundedRun Id V) : pop.Steps BoundedStep run := by
  refine .read_bind ?_
  split
  · exact .pure none
  · -- A wave that is exhausted only changes the depth and the end of the next wave.
    have rest (head : Nat) (run : BoundedRun Id V) : (slot queue head >>= fun element =>
        (Mutation.modify fun run : BoundedRun Id V => { run with head := run.head + 1 }) >>=
          fun _ => Mutation.read >>= fun run => pure (some (element, run.depth)) :
        Mutation BfsHalt (BoundedRun Id V) _).Steps BoundedStep run := by
      refine .bind (slot_steps _ _ _) fun element _ _ => ?_
      exact .bind (.modify ⟨rfl, rfl, .refl _ _⟩) fun _ _ _ => .read_bind (.pure _)
    split
    · exact .bind (.modify ⟨rfl, rfl, .refl _ _⟩) fun _ state _ => rest _ state
    · exact rest _ run

theorem emit_steps (element : Id) (depth : UInt32) (run : BoundedRun Id V) :
    (emit visit element depth).Steps BoundedStep run := by
  refine .read_bind ?_
  simp only
  refine .bind (.modify ⟨rfl, rfl, .refl _ _⟩) fun _ state _ => ?_
  split
  · exact .pure _
  · exact .bind (.modify ⟨rfl, rfl, .refl _ _⟩) fun _ _ _ => .read_bind (.pure _)

theorem enqueue_steps (element : Id) (index : Nat) (run : BoundedRun Id V) :
    (enqueue element index).Steps BoundedStep run := by
  refine .bind (.modify ⟨rfl, rfl, .set _ _ _⟩) fun _ state _ => .read_bind ?_
  refine .bind (slot_steps _ _ _) fun _ _ _ => ?_
  exact .modify ⟨rfl, List.length_set, .refl _ _⟩

theorem obey_steps (flow : ControlFlow) (run : BoundedRun Id V) :
    (obey flow).Steps BoundedStep run := by
  unfold obey
  split
  · exact .fail _
  · exact .pure ()

theorem discover_steps (target : Id) (index : Nat) (depth : UInt32) (run : BoundedRun Id V) :
    (discover visit target index depth).Steps BoundedStep run := by
  refine .read_bind ?_
  split
  · exact .fail _
  · refine .bind (slot_steps _ _ _) fun mark _ _ => ?_
    split
    · exact .pure _
    · exact .bind (enqueue_steps _ _ _) fun _ _ _ => emit_steps _ _ _

theorem seed_steps (element : Id) (run : BoundedRun Id V) :
    (BoundedRun.seed graph visit element).Steps BoundedStep run := by
  refine .read_bind ?_
  split
  · exact .fail _
  · simp only
    split
    · exact .fail _
    · refine .bind (slot_steps _ _ _) fun mark _ _ => ?_
      split
      · exact .pure ()
      · refine .bind (enqueue_steps _ _ _) fun _ _ _ => ?_
        split
        · exact .bind (emit_steps _ _ _) fun _ _ _ => obey_steps _ _
        · exact .pure ()

theorem expand_steps (rows : Id → List Id) (element : Id) (depth : UInt32)
    (run : BoundedRun Id V) : (expand graph visit rows element depth).Steps BoundedStep run := by
  refine .read_bind ?_
  split
  · refine .forM _ fun target _ state => ?_
    exact .bind (discover_steps _ _ _ _) fun _ _ _ => obey_steps _ _
  · exact .pure ()

theorem drive_steps (rows : Id → List Id) (fuel : Nat) (run : BoundedRun Id V) :
    (drive graph visit rows fuel).Steps BoundedStep run := by
  induction fuel generalizing run with
  | zero => exact .pure ()
  | succ fuel ih =>
    refine .bind (pop_steps run) fun popped state _ => ?_
    cases popped with
    | none => exact .pure ()
    | some entry => exact .bind (expand_steps _ _ _ _) fun _ state _ => ih state

end Bounded

-- What earlier uses leave.

/-- Settled scratch over slices of given lengths. -/
structure Usable (marks queue : Nat) (scratch : BfsEpochScratch Id) : Prop where
  settled : Settled scratch.marks scratch.epoch
  marks : scratch.marks.length = marks
  queue : scratch.queue.length = queue

/-- An advance leaves the marks settled by the new epoch. -/
theorem advance_settled {counter : EpochCounter} {marks : List UInt32}
    (settled : Settled marks counter) :
    Settled (counter.advance marks).2 (counter.advance marks).1 :=
  fun mark member => UInt32.le_of_lt ((advance_fresh settled).2 mark member)

/-- Creating a search over scratch fails and changes nothing, or advances the epoch. -/
theorem withEpochScratch_cases (graph : TopologyView Id) (start : Id)
    (scratch : BfsEpochScratch Id) :
    (∃ error, breadthFirstSearchWithEpochScratch graph start scratch = (.error error, scratch)) ∨
      ∃ witness, breadthFirstSearchWithEpochScratch graph start scratch =
        (.ok (.new (scratch.epoch.advance scratch.marks).2 scratch.queue
          (scratch.epoch.advance scratch.marks).1.epoch start witness), { scratch with
            epoch := (scratch.epoch.advance scratch.marks).1
            marks := (scratch.epoch.advance scratch.marks).2 }) := by
  unfold breadthFirstSearchWithEpochScratch
  rw [Mutation.bind_apply, Mutation.read]
  simp only
  rw [Mutation.bind_apply, Mutation.lift]
  cases ValidatedScratch.new graph start scratch.marks.length scratch.queue.length with
  | error error => exact .inl ⟨error, rfl⟩
  | ok witness => exact .inr ⟨witness, rfl⟩

/-- A bounded search fails and changes nothing, or leaves what its steps from a new epoch leave. -/
theorem boundedSearch_cases {V : Type} (graph : TopologyView Id) (rows : Id → List Id)
    (seeds : List Id) (bounds : BfsBounds) (visit : BfsVisitor Id V) (scratch : BfsEpochScratch Id)
    (visitor : V) :
    (boundedSearch graph rows seeds bounds visit scratch visitor).2.1 = scratch ∨
      ∃ before after : BoundedRun Id V, BoundedStep before after ∧
        before.marks = (scratch.epoch.advance scratch.marks).2 ∧ before.queue = scratch.queue ∧
        before.epoch = (scratch.epoch.advance scratch.marks).1.epoch ∧
        (boundedSearch graph rows seeds bounds visit scratch visitor).2.1 =
          { marks := after.marks, queue := after.queue
            epoch := (scratch.epoch.advance scratch.marks).1 } := by
  unfold boundedSearch
  simp only
  split
  · exact .inl rfl
  · split
    · exact .inl rfl
    · refine .inr ⟨_, _, .run ?_, rfl, rfl, rfl, rfl⟩
      refine .bind (.forM _ fun seed _ state => Bounded.seed_steps seed state) fun _ _ _ => ?_
      refine .bind (.modify ⟨rfl, rfl, .refl _ _⟩) fun _ state _ => ?_
      exact Bounded.drive_steps rows _ state

/-- A use of scratch leaves it usable, whether it succeeded, failed or panicked. -/
theorem use_usable {marks queue : Nat} {scratch : BfsEpochScratch Id}
    (usable : Usable marks queue scratch) (use : ScratchUse Id) :
    Usable marks queue (use.run scratch) := by
  obtain ⟨length, _⟩ := advance_fresh usable.settled
  have advanced := advance_settled usable.settled
  cases use with
  | search graph direction start count =>
    rcases withEpochScratch_cases graph start scratch with ⟨_, failed⟩ | ⟨witness, created⟩
    · rw [ScratchUse.run, failed]
      exact usable
    · rw [ScratchUse.run, created]
      -- Seating the start is one more step of the frontier.
      have steps := Remarking.run (@epochFrontier_steps Id graph direction count
        (.new (scratch.epoch.advance scratch.marks).2 scratch.queue
          (scratch.epoch.advance scratch.marks).1.epoch start witness))
      have seated : Remarked (scratch.epoch.advance scratch.marks).1.epoch _ _ :=
        .trans (.set _ (scratch.epoch.advance scratch.marks).2 witness.startIndex) steps.remarked
      refine ⟨seated.settled advanced, ?_, ?_⟩
      · exact (seated.length.trans length).trans usable.marks
      · refine (steps.sameSlots.trans ?_).trans usable.queue
        exact List.length_set
  | bounded graph rows seeds bounds visit visitor =>
    show Usable marks queue (boundedSearch graph rows seeds bounds visit scratch visitor).2.1
    rcases boundedSearch_cases graph rows seeds bounds visit scratch visitor with
      unchanged | ⟨before, after, steps, marksAre, queueIs, epochIs, left⟩
    · rw [unchanged]
      exact usable
    · rw [left]
      obtain ⟨_, sameSlots, remarked⟩ := steps
      rw [epochIs, marksAre] at remarked
      rw [queueIs] at sameSlots
      refine ⟨remarked.settled advanced, ?_, sameSlots.trans usable.queue⟩
      exact (remarked.length.trans length).trans usable.marks

/-- Any uses of new scratch leave it usable. -/
theorem uses_usable (marks : List UInt32) (queue : List Id) (uses : List (ScratchUse Id)) :
    Usable marks.length queue.length
      (uses.foldl (fun scratch use => use.run scratch) (.new marks queue)) := by
  -- Each use leaves the scratch usable, so this is by induction on the uses.
  have general (scratch : BfsEpochScratch Id) (usable : Usable marks.length queue.length scratch) :
      Usable marks.length queue.length
        (uses.foldl (fun scratch use => use.run scratch) scratch) := by
    induction uses generalizing scratch with
    | nil => exact usable
    | cons use uses ih => exact ih _ (use_usable usable use)
  refine general _ ⟨fun mark member => ?_, List.length_replicate, rfl⟩
  rw [List.eq_of_mem_replicate member]
  exact UInt32.zero_le

/-- A use of a workspace leaves it settled, whether it succeeded, failed or panicked. -/
theorem use_settled {workspace : BfsWorkspace Id}
    (settled : Settled workspace.marks workspace.epoch) (use : WorkspaceUse Id) :
    Settled (use.run workspace).marks (use.run workspace).epoch := by
  unfold WorkspaceUse.run
  cases validated : ValidatedStart.new use.graph use.start with
  | error error =>
    have failed : breadthFirstSearchWithWorkspace use.graph use.start workspace =
        (.error error, workspace) := by
      unfold breadthFirstSearchWithWorkspace
      rw [Mutation.bind_apply, Mutation.lift, validated]
    rw [failed]
    exact settled
  | ok witness =>
    rw [withWorkspace_eq validated workspace]
    have grown := (@ensureElementBound_spec Id workspace witness.bound settled).2
    have steps := Remarking.run (@workspaceFrontier_steps Id use.graph use.direction use.calls
      (.new (((workspace.ensureElementBound witness.bound).epoch).advance
          (workspace.ensureElementBound witness.bound).marks).2
        (((workspace.ensureElementBound witness.bound).epoch).advance
          (workspace.ensureElementBound witness.bound).marks).1.epoch use.start witness))
    exact Remarked.settled (.trans (.set _ _ _) steps.remarked) (advance_settled grown)

/-- Any uses of a settled workspace leave it settled. -/
theorem uses_settled {workspace : BfsWorkspace Id}
    (settled : Settled workspace.marks workspace.epoch) (uses : List (WorkspaceUse Id)) :
    Settled (uses.foldl WorkspaceUse.run workspace).marks
      (uses.foldl WorkspaceUse.run workspace).epoch := by
  induction uses generalizing workspace with
  | nil => exact settled
  | cons use uses ih => exact ih (use_settled settled use)

/-- A new workspace is settled, whatever bound it is made for. -/
theorem withElementBound_settled (elementBound : Nat) :
    Settled (BfsWorkspace.withElementBound elementBound : BfsWorkspace Id).marks
      (BfsWorkspace.withElementBound elementBound : BfsWorkspace Id).epoch := by
  intro mark member
  rw [List.eq_of_mem_replicate member]
  exact UInt32.zero_le

/--
All breadth-first searches yield one sequence, the breadth-first order from the start.

Byte flags may hold anything; epoch scratch and workspaces may have been through any uses, over
any views.
-/
theorem searches_agree [DecidableEq Id] [Ord Id] [Std.TransOrd Id] [Std.LawfulEqOrd Id]
    [Hashable Id] (graph : TopologyView Id) (direction : ExpansionDirection) (start : Id) :
    ∃ results, BreadthFirst (direction.expand graph) start results ∧
      Yields graph direction (breadthFirstSearchGeneric start) results ∧
      Yields graph direction (breadthFirstSearchGenericHash start) results ∧
      (graph.Lawful → graph.containsElement start = true →
        (∃ frontier, breadthFirstSearch graph start = .ok frontier ∧
          Yields graph direction frontier results) ∧
        (∀ visited queue, graph.elementBound ≤ visited.length → graph.elementBound ≤ queue.length →
          ∃ frontier, breadthFirstSearchWithScratch graph start visited queue = .ok frontier ∧
            Yields graph direction frontier results) ∧
        (∀ marks queue (uses : List (ScratchUse Id)), graph.elementBound ≤ marks.length →
          graph.elementBound ≤ queue.length → ∃ frontier after,
            breadthFirstSearchWithEpochScratch graph start
              (uses.foldl (fun scratch use => use.run scratch) (.new marks queue)) =
                (.ok frontier, after) ∧ Yields graph direction frontier results) ∧
        (∀ workspace (uses : List (WorkspaceUse Id)), workspace = .new ∨
          (∃ elementBound, workspace = .withElementBound elementBound) → ∃ frontier after,
            breadthFirstSearchWithWorkspace graph start (uses.foldl WorkspaceUse.run workspace) =
              (.ok frontier, after) ∧ Yields graph direction frontier results)) := by
  refine ⟨_, breadthFirst_spec _ start, Generic.yields graph direction start,
    Generic.yields graph direction start, fun lawful contained => ⟨?owned, ?flags, ?epoch, ?work⟩⟩
  case owned => exact owned_yields lawful direction contained
  case flags =>
    intro visited queue visitedFits queueFits
    exact scratch_yields lawful direction contained visitedFits queueFits
  case epoch =>
    intro marks queue uses marksFit queueFits
    obtain ⟨settled, sameMarks, sameQueue⟩ := uses_usable marks queue uses
    exact epochScratch_yields lawful direction contained settled (sameMarks ▸ marksFit)
      (sameQueue ▸ queueFits)
  case work =>
    intro workspace uses made
    have settled : Settled workspace.marks workspace.epoch := by
      rcases made with rfl | ⟨elementBound, rfl⟩
      · exact withElementBound_settled 0
      · exact withElementBound_settled elementBound
    exact workspace_yields lawful direction contained (uses_settled settled uses)

/-- A view of three elements: the first points to the others, and the last back to the first. -/
def fork : TopologyView Nat where
  elementBound := 3
  elementIndex element := element
  containsElement element := decide (element < 3)
  elementSuccessors element := if element = 0 then [2, 1] else if element = 1 then [0] else []
  elementPredecessors element := if element = 0 then [1] else if element < 3 then [0] else []

theorem fork_lawful : fork.Lawful := by
  constructor
  case indexed => exact fun contained => of_decide_eq_true contained
  case distinct => exact fun _ _ same => same
  case successors =>
    intro element _ target member
    unfold fork at *
    simp only at member
    split at member <;> [skip; split at member] <;> simp at member <;> simp <;> omega
  case predecessors =>
    intro element _ target member
    unfold fork at *
    simp only at member
    split at member <;> [skip; split at member] <;> simp at member <;> simp <;> omega

/-- Over the fork, a search over a workspace that failed once agrees with one over a tree set. -/
theorem searches_agree_fork : ∃ results, BreadthFirst fork.elementSuccessors 0 results ∧
    Yields fork .forward (breadthFirstSearchGeneric 0) results ∧
    ∃ frontier after, breadthFirstSearchWithWorkspace fork 0
      (WorkspaceUse.run .new { graph := fork, direction := .reverse, start := 3, calls := 2 }) =
        (.ok frontier, after) ∧ Yields fork .forward frontier results := by
  obtain ⟨results, order, tree, _, dense⟩ := searches_agree fork .forward 0
  obtain ⟨_, _, _, work⟩ := dense fork_lawful (by decide)
  exact ⟨results, order, tree, work .new
    [{ graph := fork, direction := .reverse, start := 3, calls := 2 }] (.inl rfl)⟩

end Bfs

end Oxgraph
