import Oxgraph.Algo.Scc
import Oxgraph.Lib.Tarjan
import Oxgraph.Proofs.Algo.Components

/-! The walks of strongly connected components are Tarjan's search of the induced rows. -/

namespace Oxgraph

namespace Scc

variable {Id : Type} [DecidableEq Id] {graph : TopologyView Id} {elements : List Id}

/-- The order index of an element under a search. -/
def number (search : Tarjan.Search Id) (element : Id) : Nat :=
  if search.Found element then search.order element else unvisited

/-- The slots by index and the stacks are those of a search. -/
structure Tracks (graph : TopologyView Id) (elements : List Id) (scratch : TarjanScratch Id)
    (work : List (Frame Id)) (search : Tarjan.Search Id) : Prop where
  orderIndex : graph.Holds elements scratch.orderIndex (number search)
  lowlink : graph.Holds elements scratch.lowlink search.low
  onStack : graph.Holds elements scratch.onStack fun element => decide (element ∈ search.stack)
  stack : scratch.stack = search.stack
  components : scratch.components = search.components
  counter : scratch.counter = search.counter
  work : search.work = work.map fun frame => (frame.node, frame.successors.drop frame.position)

omit [DecidableEq Id] in
/-- The slot of an element that is met is in range. -/
theorem store_eq {T : Type} {slots : List T} {values : Id → T}
    (holds : graph.Holds elements slots values) {element : Id} (meets : graph.Meets elements element)
    (value : T) : store slots (graph.elementIndex element) value =
      some (slots.set (graph.elementIndex element) value) :=
  if_pos (List.getElem?_eq_some_iff.mp (holds element meets)).1

variable (apart : graph.TellsApart elements)
include apart

namespace Tracks

variable {scratch : TarjanScratch Id} {work : List (Frame Id)} {search : Tarjan.Search Id}

/-- A lowlink that is lowered in a search is lowered in its slot. -/
theorem lower (tracks : Tracks graph elements scratch work search) {node : Id}
    (meets : graph.Meets elements node) {value : Nat} (less : value < search.low node) :
    Tracks graph elements
      { scratch with lowlink := scratch.lowlink.set (graph.elementIndex node) value } work
      (search.lower node value) := by
  rw [Tarjan.Search.lower, if_pos less]
  exact { tracks with lowlink := tracks.lowlink.set apart meets value }

variable {member : List Bool}
  (marked : graph.Holds elements member fun element => decide (element ∈ graph.nodes elements))
include marked

/-- Discovering a requested element runs, and tracks the discovery. -/
theorem discover (tracks : Tracks graph elements scratch work search) {node : Id}
    (requested : graph.Requested elements node) (room : search.counter + 1 < usizeBound) :
    ∃ next frames, Scc.discover graph member node scratch work = some (next, frames) ∧
      Tracks graph elements next frames (search.discover (graph.inducedRow elements) node) := by
  have meets := requested.meets
  have counter : checkedAdd scratch.counter 1 = some (search.counter + 1) := by
    rw [tracks.counter]
    exact if_pos room
  have ran : Scc.discover graph member node scratch work = some
      ({ scratch with
          orderIndex := scratch.orderIndex.set (graph.elementIndex node) scratch.counter
          lowlink := scratch.lowlink.set (graph.elementIndex node) scratch.counter
          counter := search.counter + 1
          onStack := scratch.onStack.set (graph.elementIndex node) true
          stack := node :: scratch.stack },
        { node, successors := memberSuccessors graph member node, position := 0 } :: work) := by
    unfold Scc.discover
    dsimp only
    rw [store_eq tracks.orderIndex meets, store_eq tracks.lowlink meets, counter,
      store_eq tracks.onStack meets]
    rfl
  -- Only the slots of the node change, and it had no number before.
  refine ⟨_, _, ran, ?_, ?_, ?_, ?_, tracks.components, rfl, ?_⟩
  · intro element met
    refine (tracks.orderIndex.set apart meets _ element met).trans (congrArg some ?_)
    rw [tracks.counter]
    by_cases same : element = node
    · subst same
      have found : (search.discover (graph.inducedRow elements) element).Found element :=
        .inl List.mem_cons_self
      rw [Function.update_self, number, if_pos found]
      show search.counter = Function.update search.order element search.counter element
      rw [Function.update_self]
    · have found : (search.discover (graph.inducedRow elements) node).Found element ↔
          search.Found element :=
        or_congr_left (List.mem_cons.trans (or_iff_right same))
      have order : (search.discover (graph.inducedRow elements) node).order element =
          search.order element := Function.update_of_ne same ..
      rw [Function.update_of_ne same, number, number, order]
      simp only [found]
  · dsimp only
    rw [tracks.counter]
    exact tracks.lowlink.set apart meets _
  · intro element met
    refine (tracks.onStack.set apart meets _ element met).trans (congrArg some ?_)
    by_cases same : element = node
    · subst same
      rw [Function.update_self]
      exact (decide_eq_true List.mem_cons_self).symm
    · rw [Function.update_of_ne same]
      exact decide_eq_decide.mpr (List.mem_cons.trans (or_iff_right same)).symm
  · exact congrArg (node :: ·) tracks.stack
  · rw [List.map_cons, ← tracks.work, memberSuccessors,
      TopologyView.filter_isMember marked requested]
    rfl

/-- Relating a requested element to a requested successor runs, and tracks the step. -/
theorem advance (tracks : Tracks graph elements scratch work search) {node successor : Id}
    (source : graph.Requested elements node) (target : graph.Requested elements successor)
    (numbered : search.Found successor → search.order successor < unvisited)
    (room : ¬ search.Found successor → search.counter + 1 < usizeBound) :
    ∃ next frames, Scc.advance graph member node successor scratch work = some (next, frames) ∧
      Tracks graph elements next frames
        (search.advance (graph.inducedRow elements) node successor) := by
  unfold Scc.advance
  dsimp only
  rw [tracks.orderIndex successor target.meets, number]
  -- The number of a slot tells whether its element was found, and the mark whether it is settled.
  by_cases found : search.Found successor
  · rw [if_pos found]
    have differs := Nat.ne_of_lt (numbered found)
    by_cases onStack : successor ∈ search.stack
    · have slot : scratch.onStack[graph.elementIndex successor]? = some true :=
        (tracks.onStack successor target.meets).trans (congrArg some (decide_eq_true onStack))
      have low := tracks.lowlink node source.meets
      rw [Tarjan.Search.advance, if_pos onStack]
      by_cases less : search.order successor < search.low node
      · refine ⟨_, _, ?_, tracks.lower apart source.meets less⟩
        simp [differs, slot, low, less]
      · refine ⟨scratch, work, ?_, ?_⟩
        · simp [differs, slot, low, less]
        · rw [Tarjan.Search.lower, if_neg less]
          exact tracks
    · have slot : scratch.onStack[graph.elementIndex successor]? = some false :=
        (tracks.onStack successor target.meets).trans (congrArg some (decide_eq_false onStack))
      rw [Tarjan.Search.advance, if_neg onStack, if_pos (found.resolve_left onStack)]
      refine ⟨scratch, work, ?_, tracks⟩
      simp [differs, slot]
  · obtain ⟨next, frames, ran, after⟩ := tracks.discover apart marked target (room found)
    have fresh := not_or.mp found
    rw [if_neg found, Tarjan.Search.advance, if_neg fresh.1, if_neg fresh.2]
    refine ⟨next, frames, ?_, after⟩
    simp [ran]

omit marked in
/-- Popping takes a stack apart at the root, and takes the marks of what is popped off. -/
theorem popUntil {root : Id} (meets : graph.Meets elements root) {stack : List Id}
    (listed : root ∈ stack) (nodup : stack.Nodup) (met : ∀ node ∈ stack, graph.Meets elements node)
    {onStack : List Bool} (holds : graph.Holds elements onStack fun node => decide (node ∈ stack))
    (component : List Id) : ∃ marks,
      Scc.popUntil graph (graph.elementIndex root) stack onStack component =
        some ((stack.dropWhile (· != root)).tail, marks,
          component ++ (stack.takeWhile (· != root) ++ [root])) ∧
      graph.Holds elements marks
        fun node => decide (node ∈ (stack.dropWhile (· != root)).tail) := by
  -- What is popped goes to the component, until the root does.
  induction stack generalizing onStack component with
  | nil => cases listed
  | cons popped rest ih =>
    obtain ⟨absent, others⟩ := List.nodup_cons.mp nodup
    obtain ⟨own, later⟩ := List.forall_mem_cons.mp met
    have cleared : graph.Holds elements (onStack.set (graph.elementIndex popped) false)
        fun node => decide (node ∈ rest) := by
      intro node inside
      refine (holds.set apart own false node inside).trans (congrArg some ?_)
      by_cases same : node = popped
      · subst same
        rw [Function.update_self]
        exact (decide_eq_false absent).symm
      · rw [Function.update_of_ne same]
        exact decide_eq_decide.mpr (List.mem_cons.trans (or_iff_right same))
    rw [Scc.popUntil, store_eq holds own]
    by_cases same : popped = root
    · subst same
      refine ⟨onStack.set (graph.elementIndex popped) false, ?_, ?_⟩
      · rw [List.dropWhile_cons_of_neg (by simp), List.takeWhile_cons_of_neg (by simp)]
        simp
      · rw [List.dropWhile_cons_of_neg (by simp), List.tail_cons]
        exact cleared
    · have distinct : graph.elementIndex popped ≠ graph.elementIndex root :=
        fun equal => same (apart popped root own meets equal)
      have below : root ∈ rest := (List.mem_cons.mp listed).resolve_left (Ne.symm same)
      obtain ⟨marks, ran, left⟩ := ih below others later cleared (component ++ [popped])
      refine ⟨marks, ?_, ?_⟩
      · rw [List.dropWhile_cons_of_pos (by simpa using same),
          List.takeWhile_cons_of_pos (by simpa using same)]
        simpa [distinct] using ran
      · rw [List.dropWhile_cons_of_pos (by simpa using same)]
        exact left

omit marked in
/-- Taking the component of a root runs, and tracks it. -/
theorem popComponent (tracks : Tracks graph elements scratch work search) {root : Id}
    (listed : root ∈ search.stack) (nodup : search.stack.Nodup)
    (met : ∀ node ∈ search.stack, graph.Meets elements node)
    (found : ∀ node, (search.pop root).Found node ↔ search.Found node) :
    ∃ next, Scc.popComponent graph (graph.elementIndex root) scratch = some next ∧
      Tracks graph elements next work (search.pop root) := by
  obtain ⟨marks, ran, holds⟩ := popUntil apart (met root listed) listed nodup met tracks.onStack []
  rw [Scc.popComponent, tracks.stack, ran]
  refine ⟨_, rfl, ?_, tracks.lowlink, holds, rfl, ?_, tracks.counter, tracks.work⟩
  · intro node inside
    refine (tracks.orderIndex node inside).trans (congrArg some ?_)
    unfold number
    simp only [found]
    rfl
  · exact congrArg (· ++ _) tracks.components

omit marked in
/-- Handing a lowlink down runs, and tracks what it does. -/
theorem propagate (tracks : Tracks graph elements scratch work search) {node : Id}
    (own : graph.Meets elements node)
    (met : ∀ frame ∈ work, graph.Meets elements frame.node) :
    ∃ next, Scc.propagate graph (graph.elementIndex node) scratch work = some (next, work) ∧
      Tracks graph elements next work (search.propagate node) := by
  unfold Scc.propagate Tarjan.Search.propagate
  cases work with
  | nil =>
    rw [tracks.work]
    exact ⟨scratch, rfl, tracks⟩
  | cons parent rest =>
    have parentMet := met parent List.mem_cons_self
    rw [tracks.work, List.map_cons]
    dsimp only
    rw [tracks.lowlink node own, tracks.lowlink parent.node parentMet]
    -- The parent is lowered when the node's lowlink is below its own.
    by_cases less : search.low node < search.low parent.node
    · refine ⟨_, ?_, tracks.lower apart parentMet less⟩
      simp [less]
    · refine ⟨scratch, ?_, ?_⟩
      · simp [less]
      · rw [Tarjan.Search.lower, if_neg less]
        exact tracks

omit marked in
/-- Finishing a node that has no successors left runs, and tracks its closing. -/
theorem finish {row : Id → List Id} (sound : Tarjan.Sound row (graph.nodes elements) search)
    {top : Frame Id} (tracks : Tracks graph elements scratch (top :: work) search)
    {frames : List (Id × List Id)} (done : search.work = (top.node, []) :: frames) :
    ∃ next, Scc.finish graph top.node scratch (top :: work) = some (next, work) ∧
      Tracks graph elements next work (search.close top.node frames) := by
  have met {node : Id} (listed : node ∈ search.stack) : graph.Meets elements node :=
    (TopologyView.mem_nodes.mp (sound.known node listed)).meets
  have listed := sound.top_listed done
  have low := tracks.lowlink top.node (met listed)
  have order : scratch.orderIndex[graph.elementIndex top.node]? = some (search.order top.node) :=
    (tracks.orderIndex top.node (met listed)).trans (congrArg some (if_pos (.inl listed)))
  have below : frames = work.map fun frame => (frame.node, frame.successors.drop frame.position) := by
    have whole := tracks.work
    rw [done, List.map_cons] at whole
    exact (List.cons.inj whole).2
  have framesMet : ∀ frame ∈ work, graph.Meets elements frame.node := by
    intro frame inside
    refine met (sound.mem_stack ?_)
    rw [Tarjan.Search.opens, tracks.work]
    exact List.mem_map_of_mem (List.mem_map_of_mem (List.mem_cons_of_mem _ inside))
  unfold Scc.finish Tarjan.Search.close
  dsimp only
  rw [low, order]
  -- A root takes its component with it, and either way its lowlink is handed down.
  by_cases rooted : search.low top.node = search.order top.node
  · obtain ⟨popped, ran, after⟩ := tracks.popComponent apart listed sound.nodup_stack
      (fun node => met) (sound.found_pop done)
    have left : Tracks graph elements popped work { search.pop top.node with work := frames } :=
      { after with work := below }
    obtain ⟨next, handed, tracked⟩ := left.propagate apart (met listed) framesMet
    refine ⟨next, ?_, ?_⟩
    · simpa [rooted, ran] using handed
    · rw [if_pos rooted]
      exact tracked
  · have left : Tracks graph elements scratch work { search with work := frames } :=
      { tracks with work := below }
    obtain ⟨next, handed, tracked⟩ := left.propagate apart (met listed) framesMet
    refine ⟨next, ?_, ?_⟩
    · simpa [rooted] using handed
    · rw [if_neg rooted]
      exact tracked

omit marked in
/-- The bound of the indexes keeps the numbers of a search apart from that of no visit. -/
theorem numbered {row : Id → List Id} (sound : Tarjan.Sound row (graph.nodes elements) search)
    (small : graph.elementBound < usizeBound) {element : Id} (found : search.Found element) :
    search.order element < unvisited := by
  have number := (sound.of_found found).2
  have counter := sound.counter_le
  have nodes := @TopologyView.length_nodes_le Id graph elements _ apart
  unfold unvisited
  omega

omit marked in
/-- There is a number for another element while one is not found. -/
theorem room {row : Id → List Id} (sound : Tarjan.Sound row (graph.nodes elements) search)
    (small : graph.elementBound < usizeBound) {element : Id}
    (inside : element ∈ graph.nodes elements) (fresh : ¬ search.Found element) :
    search.counter + 1 < usizeBound := by
  have more := sound.counter_lt inside fresh
  have nodes := @TopologyView.length_nodes_le Id graph elements _ apart
  omega

/-- A round on the frame on top runs, and tracks a step of the search. -/
theorem expand (small : graph.elementBound < usizeBound)
    (sound : Tarjan.Sound (graph.inducedRow elements) (graph.nodes elements) search)
    {top : Frame Id} (tracks : Tracks graph elements scratch (top :: work) search) :
    ∃ next frames, Scc.expand graph member scratch top work = some (next, frames) ∧
      Tracks graph elements next frames (search.step (graph.inducedRow elements)) := by
  have whole := tracks.work
  rw [List.map_cons] at whole
  have open_ : top.node ∈ search.opens := by
    rw [Tarjan.Search.opens, whole]
    exact List.mem_cons_self
  have requested := TopologyView.mem_nodes.mp (sound.known top.node (sound.mem_stack open_))
  unfold Scc.expand Tarjan.Search.step
  -- The successors from the position on are those that are left.
  cases slot : top.successors[top.position]? with
  | none =>
    rw [List.drop_eq_nil_of_le (List.getElem?_eq_none_iff.mp slot)] at whole
    obtain ⟨next, ran, after⟩ := tracks.finish apart sound whole
    rw [whole]
    exact ⟨next, work, ran, after⟩
  | some successor =>
    obtain ⟨inside, at_⟩ := List.getElem?_eq_some_iff.mp slot
    rw [List.drop_eq_getElem_cons inside, at_] at whole
    have edge := sound.pending _ (whole ▸ List.mem_cons_self) successor List.mem_cons_self
    have target := TopologyView.inducedRow_within edge
    rw [whole]
    have passed : Tracks graph elements scratch
        ({ top with position := top.position + 1 } :: work)
        { search with
          work := (top.node, top.successors.drop (top.position + 1)) ::
            work.map fun frame => (frame.node, frame.successors.drop frame.position) } :=
      { tracks with work := rfl }
    exact passed.advance apart marked requested (TopologyView.mem_nodes.mp target)
      (numbered apart sound small) (room apart sound small target)

/-- Walking on until no frame is left runs, and ends a search that loses no element. -/
theorem walk (small : graph.elementBound < usizeBound)
    (sound : Tarjan.Sound (graph.inducedRow elements) (graph.nodes elements) search)
    (tracks : Tracks graph elements scratch work search) {fuel : Nat}
    (enough : search.left (graph.inducedRow elements) (graph.nodes elements) < fuel) :
    ∃ next final, Scc.walk graph member fuel scratch work = some next ∧
      Tarjan.Sound (graph.inducedRow elements) (graph.nodes elements) final ∧
      Tracks graph elements next [] final ∧ ∀ element, search.Found element → final.Found element := by
  have within : ∀ node ∈ graph.nodes elements, ∀ neighbour ∈ graph.inducedRow elements node,
      neighbour ∈ graph.nodes elements := fun _ _ _ => TopologyView.inducedRow_within
  -- Each step leaves fewer, so the fuel lasts until no frame is left.
  induction fuel generalizing scratch work search with
  | zero => exact absurd enough (Nat.not_lt_zero _)
  | succ fuel ih =>
    cases work with
    | nil => exact ⟨scratch, search, rfl, sound, tracks, fun _ found => found⟩
    | cons top work =>
      obtain ⟨next, frames, ran, after⟩ := tracks.expand apart marked small sound
      have more : search.work ≠ [] := by
        rw [tracks.work]
        exact List.cons_ne_nil _ _
      have fewer := sound.left_step within more
      obtain ⟨last, final, walked, ended, tracked, kept⟩ := ih (sound.step within) after (by omega)
      refine ⟨last, final, ?_, ended, tracked, fun element found => ?_⟩
      · rw [Scc.walk, ran]
        exact walked
      · exact kept element (sound.found_step found)

/-- Visiting a requested element runs, and finds it. -/
theorem visit (small : graph.elementBound < usizeBound)
    (sound : Tarjan.Sound (graph.inducedRow elements) (graph.nodes elements) search)
    (tracks : Tracks graph elements scratch [] search) {start : Id}
    (inside : start ∈ graph.nodes elements) :
    ∃ next final, Scc.visit graph member (graph.nodes elements) scratch start = some next ∧
      Tarjan.Sound (graph.inducedRow elements) (graph.nodes elements) final ∧
      Tracks graph elements next [] final ∧ final.Found start ∧
        ∀ element, search.Found element → final.Found element := by
  have requested := TopologyView.mem_nodes.mp inside
  unfold Scc.visit
  dsimp only
  rw [tracks.orderIndex start requested.meets, number, Option.bind_eq_bind, Option.bind_some]
  by_cases found : search.Found start
  · have differs := Nat.ne_of_lt (numbered apart sound small found)
    rw [if_pos found, if_neg differs]
    exact ⟨scratch, search, rfl, sound, tracks, found, fun _ found => found⟩
  · rw [if_neg found, if_pos rfl]
    have discovered := sound.start tracks.work found inside
    obtain ⟨next, frames, ran, after⟩ :=
      tracks.discover apart marked requested (room apart sound small inside found)
    -- The fuel counts the member rows, which are the induced ones.
    have enough : (search.discover (graph.inducedRow elements) start).left
        (graph.inducedRow elements) (graph.nodes elements) <
        ((graph.nodes elements).map fun node =>
          (memberSuccessors graph member node).length + 1).sum + 1 := by
      have rows : (graph.nodes elements).map (fun node =>
          (memberSuccessors graph member node).length + 1) =
          (graph.nodes elements).map fun node => (graph.inducedRow elements node).length + 1 := by
        refine List.map_congr_left fun node member => ?_
        rw [memberSuccessors,
          TopologyView.filter_isMember marked (TopologyView.mem_nodes.mp member)]
      rw [rows]
      exact Nat.lt_succ_of_le (Tarjan.Sound.left_start tracks.work inside)
    obtain ⟨last, final, walked, ended, tracked, kept⟩ :=
      after.walk apart marked small discovered enough
    refine ⟨last, final, ?_, ended, tracked, ?_, fun element found => ?_⟩
    · rw [ran]
      exact walked
    · exact kept start (.inl List.mem_cons_self)
    · exact kept element (found.imp_left (List.mem_cons_of_mem _))

end Tracks

end Scc

variable {Id : Type} [DecidableEq Id] {graph : TopologyView Id} {elements : List Id}

end Oxgraph
