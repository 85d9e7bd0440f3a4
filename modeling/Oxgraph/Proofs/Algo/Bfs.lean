import Oxgraph.Spec.Search

/-! Every storage policy yields the breadth-first order, whatever its scratch was used for. -/

namespace Oxgraph

-- The order itself.

section Order

variable {Id : Type} [DecidableEq Id]

/-- The results of a search: the nodes that are listed, in order. -/
def breadthFirst (row : Id → List Id) (start : Id) (call : Nat) : Option Id :=
  (listed row none [start] call).map Prod.fst

/-- A result is a node listed with some depth. -/
theorem breadthFirst_eq_some {row : Id → List Id} {start element : Id} {call : Nat} :
    breadthFirst row start call = some element ↔
      ∃ depth, listed row none [start] call = some (element, depth) := by
  unfold breadthFirst
  rw [Option.map_eq_some_iff]
  constructor
  · rintro ⟨⟨_, depth⟩, found, rfl⟩
    exact ⟨depth, found⟩
  · rintro ⟨depth, found⟩
    exact ⟨_, found, rfl⟩

/-- The listed nodes are the breadth-first order. -/
theorem breadthFirst_spec (row : Id → List Id) (start : Id) :
    BreadthFirst row start (breadthFirst row start) := by
  have unlimited (depth : Nat) : Listable none depth := fun _ bounded => (nomatch bounded)
  constructor
  case first => rfl
  case once =>
    intro left right element first second
    obtain ⟨depth, one⟩ := breadthFirst_eq_some.mp first
    obtain ⟨other, two⟩ := breadthFirst_eq_some.mp second
    exact listed_once one two
  case reaches =>
    intro element
    constructor
    · rintro ⟨call, found⟩
      obtain ⟨depth, here⟩ := breadthFirst_eq_some.mp found
      exact ⟨depth, (listed_iff.mp ⟨call, here⟩).1.1⟩
    · rintro ⟨hops, reached⟩
      obtain ⟨call, depth, here, _⟩ := listed_of_hops reached (unlimited hops)
      exact ⟨call, breadthFirst_eq_some.mpr ⟨depth, here⟩⟩
  case sorted =>
    intro left right one other near far before first second nearest farthest
    obtain ⟨depth, here⟩ := breadthFirst_eq_some.mp first
    obtain ⟨deeper, there⟩ := breadthFirst_eq_some.mp second
    -- Each is listed at its distance.
    obtain ⟨place, listedNear⟩ := listed_iff.mpr ⟨nearest, unlimited near⟩
    obtain ⟨farPlace, listedFar⟩ := listed_iff.mpr ⟨farthest, unlimited far⟩
    cases listed_once here listedNear
    cases listed_once there listedFar
    cases here.symm.trans listedNear
    cases there.symm.trans listedFar
    exact listed_sorted before here there
  case order =>
    intro call
    have nodes := @map_listing Id _ row [start] call
    have rows : ((List.range call).filterMap (listed row none [start])).flatMap
          (fun entry => row entry.1) =
        ((List.range call).filterMap (breadthFirst row start)).flatMap row := by
      unfold breadthFirst
      rw [← List.map_filterMap, List.flatMap_map]
    rw [rows] at nodes
    rw [List.singleton_append] at nodes
    rw [← nodes, List.getElem?_map]
    rfl
  case ended =>
    intro call later before ended
    unfold breadthFirst at *
    rw [Option.map_eq_none_iff] at *
    exact listed_ended ended before

end Order

-- The iterator over any storage that tracks what has been found.

namespace Bfs

variable {Id S : Type} [DecidableEq Id] [BfsStep Id S]

/--
A storage policy tracks a list of found nodes and how many of them were popped.

It pops them in order, and pushes a valid target unless it has been found.
-/
structure Tracks (graph : TopologyView Id) (valid : Id → Prop) (tracks : S → List Id → Nat → Prop) :
    Prop where
  pop : ∀ {frontier nodes head}, tracks frontier nodes head → ∃ after,
    BfsStep.pop frontier = (.ok nodes[head]?, after) ∧
      tracks after nodes (min (head + 1) nodes.length)
  push : ∀ {frontier nodes head target}, tracks frontier nodes head → valid target → ∃ after,
    BfsStep.tryVisitAndPush graph target frontier = (.ok (), after) ∧
      tracks after (enterNode nodes target) head

variable {graph : TopologyView Id} {valid : Id → Prop} {tracks : S → List Id → Nat → Prop}

/-- Pushing valid targets one after the other enters each of them. -/
theorem Tracks.pushAll (policy : Tracks graph valid tracks) {frontier : S} {nodes : List Id}
    {head : Nat} (tracked : tracks frontier nodes head) {targets : List Id}
    (all : ∀ target ∈ targets, valid target) : ∃ after,
      targets.forM (BfsStep.tryVisitAndPush graph) frontier = (.ok (), after) ∧
        tracks after (targets.foldl enterNode nodes) head := by
  induction targets generalizing frontier nodes with
  | nil => exact ⟨frontier, rfl, tracked⟩
  | cons target rest ih =>
    obtain ⟨own, others⟩ := List.forall_mem_cons.mp all
    obtain ⟨middle, pushed, now⟩ := policy.push tracked own
    obtain ⟨after, pushedRest, done⟩ := ih now others
    refine ⟨after, ?_, done⟩
    rw [List.forM]
    exact Mutation.bind_ok.mpr ⟨(), middle, pushed, pushedRest⟩

/-- A policy that starts with the start alone yields the breadth-first order. -/
theorem Tracks.yields (policy : Tracks graph valid tracks) {direction : ExpansionDirection}
    {start : Id} (startValid : valid start)
    (closed : ∀ {element}, valid element → ∀ target ∈ direction.expand graph element, valid target)
    {frontier : S} (begins : tracks frontier [start] 0) :
    Yields graph direction frontier (breadthFirst (direction.expand graph) start) := by
  -- After so many calls the storage tracks the listing whose first entries have been expanded.
  have runs : ∀ count, ∃ after,
      calls graph direction count frontier =
        (.ok ((List.range count).map (breadthFirst (direction.expand graph) start)), after) ∧
      (∀ node ∈ (listing (direction.expand graph) none [start] count).map Prod.fst, valid node) ∧
      tracks after ((listing (direction.expand graph) none [start] count).map Prod.fst)
        (min count (listing (direction.expand graph) none [start] count).length) := by
    intro count
    induction count with
    | zero =>
      refine ⟨frontier, rfl, ?_, ?_⟩
      · intro node member
        cases List.mem_singleton.mp member
        exact startValid
      · exact begins
    | succ count ih =>
      obtain ⟨middle, ran, allValid, tracked⟩ := ih
      have results : @calls Id S _ graph direction (count + 1) =
          (calls graph direction count >>= fun results =>
            next graph direction >>= fun result => pure (results ++ [result])) := rfl
      obtain ⟨popped, pops, still⟩ := policy.pop tracked
      rw [results, List.range_succ, List.map_append, List.map_singleton]
      cases here : listed (direction.expand graph) none [start] count with
      | none =>
        have short : (listing (direction.expand graph) none [start] count).length ≤ count :=
          List.getElem?_eq_none_iff.mp here
        rw [Nat.min_eq_right short, List.getElem?_eq_none (by rw [List.length_map])] at pops
        rw [Nat.min_eq_right short, List.length_map, Nat.min_eq_right (Nat.le_succ _)] at still
        have stops : next graph direction middle = (.ok none, popped) := by
          unfold next
          rw [Mutation.bind_apply, pops]
          rfl
        have missing : breadthFirst (direction.expand graph) start count = none := by
          unfold breadthFirst
          rw [here]
          rfl
        rw [listing_ended here 1, missing]
        refine ⟨popped, ?_, allValid, ?_⟩
        · exact Mutation.bind_ok.mpr ⟨_, middle, ran,
            Mutation.bind_ok.mpr ⟨none, popped, stops, rfl⟩⟩
        · rw [Nat.min_eq_right (Nat.le_succ_of_le short)]
          exact still
      | some entry =>
        obtain ⟨inside, _⟩ := List.getElem?_eq_some_iff.mp here
        have read : ((listing (direction.expand graph) none [start] count).map Prod.fst)[count]? =
            some entry.1 := by
          rw [List.getElem?_map]
          unfold listed at here
          rw [here]
          rfl
        rw [Nat.min_eq_left (Nat.le_of_lt inside), read] at pops
        rw [Nat.min_eq_left (Nat.le_of_lt inside), List.length_map,
          Nat.min_eq_left inside] at still
        have entryValid : valid entry.1 := allValid _ (List.mem_of_getElem? read)
        obtain ⟨after, pushed, now⟩ := policy.pushAll still (closed entryValid)
        have yields : next graph direction middle = (.ok (some entry.1), after) := by
          unfold next
          rw [Mutation.bind_apply, pops]
          exact Mutation.bind_ok.mpr ⟨(), after, pushed, rfl⟩
        have result : breadthFirst (direction.expand graph) start count = some entry.1 := by
          unfold breadthFirst
          rw [here]
          rfl
        have nodes : (listing (direction.expand graph) none [start] (count + 1)).map Prod.fst =
            (direction.expand graph entry.1).foldl enterNode
              ((listing (direction.expand graph) none [start] count).map Prod.fst) := by
          rw [listing_succ here, map_enterAll]
          unfold expansion goesOn
          simp [Function.comp_def]
        have longer : count + 1 ≤
            (listing (direction.expand graph) none [start] (count + 1)).length := by
          have := (@listing_isPrefix Id _ (direction.expand graph) none [start] count (count + 1)
            (Nat.le_succ _)).length_le
          omega
        rw [result, nodes, Nat.min_eq_left longer]
        refine ⟨after, ?_, ?_, now⟩
        · exact Mutation.bind_ok.mpr ⟨_, middle, ran,
            Mutation.bind_ok.mpr ⟨some entry.1, after, yields, rfl⟩⟩
        · intro node member
          rw [← nodes, listing_succ here] at member
          obtain ⟨found, inListing, rfl⟩ := List.mem_map.mp member
          rcases mem_enterAll inListing with old | new
          · exact allValid _ (List.mem_map.mpr ⟨found, old, rfl⟩)
          · exact closed entryValid _ (expansion_depth new).1
  intro count
  obtain ⟨after, ran, _⟩ := runs count
  rw [ran]

end Bfs

end Oxgraph
