import Oxgraph.Proofs.Algo.Bfs

/-! The five storage policies track what has been found. -/

namespace Oxgraph

open Mutation (read_bind)

namespace Bfs

variable {Id : Type} {graph : TopologyView Id}

/-- Distinct contained elements are no more than the bound. -/
theorem length_le_bound (lawful : graph.Lawful) {nodes : List Id} (distinct : nodes.Nodup)
    (contained : ∀ node ∈ nodes, graph.containsElement node = true) :
    nodes.length ≤ graph.elementBound := by
  have indexes : (nodes.map graph.elementIndex).Nodup := by
    refine distinct.map_on ?_
    intro left leftMember right rightMember same
    exact lawful.distinct (contained left leftMember) (contained right rightMember) same
  have inside : nodes.map graph.elementIndex ⊆ List.range graph.elementBound := by
    intro index member
    obtain ⟨node, nodeMember, rfl⟩ := List.mem_map.mp member
    exact List.mem_range.mpr (lawful.indexed (contained node nodeMember))
  have fits := (indexes.subperm inside).length_le
  rwa [List.length_map, List.length_range] at fits

/-- The slots tell the found nodes apart: the slot of any other contained element is fresh. -/
structure Marks (graph : TopologyView Id) {T : Type} (fresh : T → Prop) (slots : List T)
    (nodes : List Id) : Prop where
  covers : graph.elementBound ≤ slots.length
  tells : ∀ {element}, graph.containsElement element = true → ∃ slot,
    slots[graph.elementIndex element]? = some slot ∧ (fresh slot ↔ element ∉ nodes)

/-- Marking a contained element records that it has been found. -/
theorem Marks.visit {T : Type} {fresh : T → Prop} {slots : List T} {nodes : List Id}
    (marks : Marks graph fresh slots nodes) (lawful : graph.Lawful) {target : Id}
    (contained : graph.containsElement target = true) {taken : T} (used : ¬ fresh taken) :
    Marks graph fresh (slots.set (graph.elementIndex target) taken) (nodes ++ [target]) := by
  constructor
  · rw [List.length_set]
    exact marks.covers
  · intro element elementContained
    obtain ⟨slot, read, tells⟩ := marks.tells elementContained
    by_cases same : element = target
    · refine ⟨taken, ?_, iff_of_false used (by simp [same])⟩
      rw [same, List.getElem?_set_self]
      exact Nat.lt_of_lt_of_le (lawful.indexed contained) marks.covers
    · -- Another element has another slot.
      refine ⟨slot, ?_, tells.trans (by simp [same])⟩
      rw [List.getElem?_set_ne]
      · exact read
      · exact fun shared => same (lawful.distinct elementContained contained shared.symm)

/-- Fresh slots record that nothing has been found. -/
theorem Marks.nothing {T : Type} {fresh : T → Prop} {slots : List T} (lawful : graph.Lawful)
    (covers : graph.elementBound ≤ slots.length)
    (clear : ∀ index slot, index < graph.elementBound → slots[index]? = some slot → fresh slot) :
    Marks graph fresh slots [] := by
  refine ⟨covers, ?_⟩
  intro element contained
  have inside := lawful.indexed contained
  have read := List.getElem?_eq_getElem (Nat.lt_of_lt_of_le inside covers)
  exact ⟨_, read, iff_of_true (clear _ _ inside read) (by simp)⟩

/-- A queue slice holds the found nodes in front, and has room for all others. -/
structure Queued (graph : TopologyView Id) (queue : List Id) (nodes : List Id) (head tail : Nat) :
    Prop where
  room : graph.elementBound ≤ queue.length
  holds : nodes <+: queue
  tail : tail = nodes.length
  head : head ≤ nodes.length

/-- The slot past the found nodes takes one more. -/
theorem Queued.push {queue nodes : List Id} {head tail : Nat}
    (queued : Queued graph queue nodes head tail) (free : nodes.length < queue.length) (target : Id) :
    Queued graph (queue.set tail target) (nodes ++ [target]) head (tail + 1) := by
  obtain ⟨room, ⟨rest, rfl⟩, rfl, head⟩ := queued
  cases rest with
  | nil =>
    rw [List.append_nil] at free
    omega
  | cons first others =>
    refine ⟨by rw [List.length_set]; exact room, ⟨others, ?_⟩, ?_, ?_⟩
    · rw [List.set_append_right _ _ (Nat.le_refl _), Nat.sub_self, List.set_cons_zero,
        List.append_assoc]
      rfl
    · rw [List.length_append, List.length_singleton]
    · rw [List.length_append]
      omega

/-- What has been found is distinct and contained. -/
structure Found (graph : TopologyView Id) (nodes : List Id) : Prop where
  distinct : nodes.Nodup
  contained : ∀ node ∈ nodes, graph.containsElement node = true

theorem Found.push {nodes : List Id} (found : Found graph nodes) {target : Id}
    (contained : graph.containsElement target = true) (unfound : target ∉ nodes) :
    Found graph (nodes ++ [target]) := by
  constructor
  · exact found.distinct.append (List.nodup_singleton _) (by simpa using unfound)
  · intro node member
    rcases List.mem_append.mp member with old | new
    · exact found.contained node old
    · rw [List.mem_singleton.mp new]
      exact contained

/-- A slice has a slot for one more node. -/
theorem Found.free {nodes queue : List Id} (found : Found graph nodes) (lawful : graph.Lawful)
    {target : Id} (contained : graph.containsElement target = true) (unfound : target ∉ nodes)
    (room : graph.elementBound ≤ queue.length) : nodes.length < queue.length := by
  have more := found.push contained unfound
  have fits := length_le_bound lawful more.distinct more.contained
  rw [List.length_append, List.length_singleton] at fits
  omega

theorem Found.start {start : Id} (contained : graph.containsElement start = true) :
    Found graph [start] := by
  constructor
  · exact List.nodup_singleton _
  · intro node member
    rw [List.mem_singleton.mp member]
    exact contained

/-- Popping from a queue slice yields the next found node. -/
theorem Queued.pop {queue nodes : List Id} {head tail : Nat}
    (queued : Queued graph queue nodes head tail) :
    (head = tail ∧ nodes[head]? = none) ∨
      ∃ element, head ≠ tail ∧ queue[head]? = some element ∧ nodes[head]? = some element ∧
        Queued graph queue nodes (head + 1) tail := by
  obtain ⟨room, holds, tail, within⟩ := queued
  rcases Nat.lt_or_eq_of_le within with below | same
  · have read := List.getElem?_eq_getElem below
    exact .inr ⟨_, by omega, getElem?_of_isPrefix holds read, read, room, holds, tail, below⟩
  · exact .inl ⟨by omega, List.getElem?_eq_none (by omega)⟩

-- The indexed policies: byte flags or epoch marks, and a queue slice or a queue vector.

namespace SeededByteFlag

variable {frontier : SeededByteFlagFrontier Id} {target : Id} {slot : UInt8}

/-- Popping past the last element yields nothing. -/
theorem pop_exhausted (exhausted : frontier.head = frontier.tail) :
    BfsStep.pop frontier = (.ok none, frontier) := by
  show (if frontier.head = frontier.tail then (pure none : Mutation BfsPanic _ _) else _) frontier = _
  rw [if_pos exhausted]
  rfl

/-- Popping before the last element yields the element at the head. -/
theorem pop_next {element : Id} (more : frontier.head ≠ frontier.tail)
    (read : frontier.queue[frontier.head]? = some element) :
    BfsStep.pop frontier = (.ok (some element), { frontier with head := frontier.head + 1 }) := by
  show (if frontier.head = frontier.tail then (pure none : Mutation BfsPanic _ _) else
    slotOrPanic frontier.queue frontier.head >>= fun element =>
      (Mutation.modify fun frontier : SeededByteFlagFrontier Id =>
        { frontier with head := frontier.head + 1 }) >>= fun _ => pure (some element)) frontier = _
  rw [if_neg more, slotOrPanic, read]
  rfl

/-- A visited element is passed over. -/
theorem visit_old (read : frontier.visited[graph.elementIndex target]? = some slot)
    (used : slot ≠ 0) :
    BfsStep.tryVisitAndPush graph target frontier = (.ok (), frontier) := by
  simp only [BfsStep.tryVisitAndPush, read_bind, read, if_neg used]
  rfl

/-- An unvisited element is marked and pushed. -/
theorem visit_new {last : Id} (read : frontier.visited[graph.elementIndex target]? = some slot)
    (fresh : slot = 0) (room : frontier.queue[frontier.tail]? = some last) :
    BfsStep.tryVisitAndPush graph target frontier =
      (.ok (), { frontier with
        visited := frontier.visited.set (graph.elementIndex target) 1
        queue := frontier.queue.set frontier.tail target
        tail := frontier.tail + 1 }) := by
  simp only [BfsStep.tryVisitAndPush, read_bind, read, if_pos fresh]
  rw [slotOrPanic, room]
  rfl

variable (graph) in
/-- The slots and the queue slice track what has been found. -/
structure Tracking (frontier : SeededByteFlagFrontier Id) (nodes : List Id) (head : Nat) : Prop where
  found : Found graph nodes
  marks : Marks graph (· = 0) frontier.visited nodes
  queued : Queued graph frontier.queue nodes frontier.head frontier.tail
  head : frontier.head = head

/-- The policy tracks what has been found. -/
theorem tracks [DecidableEq Id] (lawful : graph.Lawful) :
    Tracks graph (graph.containsElement · = true) (Tracking graph) := by
  constructor
  case pop =>
    intro frontier nodes head tracked
    obtain ⟨found, marks, queued, rfl⟩ := tracked
    rcases queued.pop with ⟨exhausted, past⟩ | ⟨element, more, read, here, popped⟩
    · refine ⟨frontier, ?_, found, marks, queued, ?_⟩
      · rw [pop_exhausted exhausted, past]
      · have := queued.tail
        omega
    · rw [here]
      exact ⟨_, pop_next more read, found, marks, popped, (Nat.min_eq_left popped.head).symm⟩
  case push =>
    intro frontier nodes head target tracked contained
    obtain ⟨found, marks, queued, rfl⟩ := tracked
    obtain ⟨slot, read, tells⟩ := marks.tells contained
    by_cases unfound : target ∈ nodes
    · rw [enterNode, if_pos unfound]
      exact ⟨frontier, visit_old read (fun fresh => tells.mp fresh unfound), found, marks, queued,
        rfl⟩
    · -- There is room for an element that has not been found.
      have free := found.free lawful contained unfound queued.room
      have room := List.getElem?_eq_getElem (queued.tail.trans_lt free)
      rw [enterNode, if_neg unfound]
      exact ⟨_, visit_new read (tells.mpr unfound) room, found.push contained unfound,
        marks.visit lawful contained (by decide), queued.push free target, rfl⟩

end SeededByteFlag

namespace SeededEpoch

variable {frontier : SeededEpochFrontier Id} {target : Id} {slot : UInt32}

/-- Popping past the last element yields nothing. -/
theorem pop_exhausted (exhausted : frontier.head = frontier.tail) :
    BfsStep.pop frontier = (.ok none, frontier) := by
  show (if frontier.head = frontier.tail then (pure none : Mutation BfsPanic _ _) else _) frontier = _
  rw [if_pos exhausted]
  rfl

/-- Popping before the last element yields the element at the head. -/
theorem pop_next {element : Id} (more : frontier.head ≠ frontier.tail)
    (read : frontier.queue[frontier.head]? = some element) :
    BfsStep.pop frontier = (.ok (some element), { frontier with head := frontier.head + 1 }) := by
  show (if frontier.head = frontier.tail then (pure none : Mutation BfsPanic _ _) else
    slotOrPanic frontier.queue frontier.head >>= fun element =>
      (Mutation.modify fun frontier : SeededEpochFrontier Id =>
        { frontier with head := frontier.head + 1 }) >>= fun _ => pure (some element)) frontier = _
  rw [if_neg more, slotOrPanic, read]
  rfl

/-- A visited element is passed over. -/
theorem visit_old (read : frontier.marks[graph.elementIndex target]? = some slot)
    (used : slot = frontier.epoch) :
    BfsStep.tryVisitAndPush graph target frontier = (.ok (), frontier) := by
  simp only [BfsStep.tryVisitAndPush, read_bind, read, if_neg (not_not.mpr used)]
  rfl

/-- An unvisited element is marked and pushed. -/
theorem visit_new {last : Id} (read : frontier.marks[graph.elementIndex target]? = some slot)
    (fresh : slot ≠ frontier.epoch) (room : frontier.queue[frontier.tail]? = some last) :
    BfsStep.tryVisitAndPush graph target frontier =
      (.ok (), { frontier with
        marks := frontier.marks.set (graph.elementIndex target) frontier.epoch
        queue := frontier.queue.set frontier.tail target
        tail := frontier.tail + 1 }) := by
  simp only [BfsStep.tryVisitAndPush, read_bind, read, if_pos fresh]
  rw [slotOrPanic, room]
  rfl

variable (graph) in
/-- The slots and the queue slice track what has been found. -/
structure Tracking (frontier : SeededEpochFrontier Id) (nodes : List Id) (head : Nat) : Prop where
  found : Found graph nodes
  marks : Marks graph (· ≠ frontier.epoch) frontier.marks nodes
  queued : Queued graph frontier.queue nodes frontier.head frontier.tail
  head : frontier.head = head

/-- The policy tracks what has been found. -/
theorem tracks [DecidableEq Id] (lawful : graph.Lawful) :
    Tracks graph (graph.containsElement · = true) (Tracking graph) := by
  constructor
  case pop =>
    intro frontier nodes head tracked
    obtain ⟨found, marks, queued, rfl⟩ := tracked
    rcases queued.pop with ⟨exhausted, past⟩ | ⟨element, more, read, here, popped⟩
    · refine ⟨frontier, ?_, found, marks, queued, ?_⟩
      · rw [pop_exhausted exhausted, past]
      · have := queued.tail
        omega
    · rw [here]
      exact ⟨_, pop_next more read, found, marks, popped, (Nat.min_eq_left popped.head).symm⟩
  case push =>
    intro frontier nodes head target tracked contained
    obtain ⟨found, marks, queued, rfl⟩ := tracked
    obtain ⟨slot, read, tells⟩ := marks.tells contained
    by_cases unfound : target ∈ nodes
    · rw [enterNode, if_pos unfound]
      exact ⟨frontier, visit_old read (by_contra fun fresh => tells.mp fresh unfound), found, marks,
        queued, rfl⟩
    · -- There is room for an element that has not been found.
      have free := found.free lawful contained unfound queued.room
      have room := List.getElem?_eq_getElem (queued.tail.trans_lt free)
      rw [enterNode, if_neg unfound]
      exact ⟨_, visit_new read (tells.mpr unfound) room, found.push contained unfound,
        marks.visit lawful contained (not_not.mpr rfl), queued.push free target, rfl⟩

end SeededEpoch

namespace SeededWorkspace

variable {frontier : SeededWorkspaceFrontier Id} {target : Id} {slot : UInt32}

/-- Popping past the last element yields nothing. -/
theorem pop_exhausted (exhausted : frontier.queue[frontier.head]? = none) :
    BfsStep.pop frontier = (.ok none, frontier) := by
  simp only [BfsStep.pop, read_bind, exhausted]
  rfl

/-- Popping before the last element yields the element at the head. -/
theorem pop_next {element : Id} (read : frontier.queue[frontier.head]? = some element) :
    BfsStep.pop frontier = (.ok (some element), { frontier with head := frontier.head + 1 }) := by
  simp only [BfsStep.pop, read_bind, read]
  rfl

/-- A visited element is passed over. -/
theorem visit_old (read : frontier.marks[graph.elementIndex target]? = some slot)
    (used : slot = frontier.epoch) :
    BfsStep.tryVisitAndPush graph target frontier = (.ok (), frontier) := by
  simp only [BfsStep.tryVisitAndPush, read_bind, read, if_neg (not_not.mpr used)]
  rfl

/-- An unvisited element is marked and pushed. -/
theorem visit_new (read : frontier.marks[graph.elementIndex target]? = some slot)
    (fresh : slot ≠ frontier.epoch) :
    BfsStep.tryVisitAndPush graph target frontier =
      (.ok (), { frontier with
        marks := frontier.marks.set (graph.elementIndex target) frontier.epoch
        queue := frontier.queue ++ [target] }) := by
  simp only [BfsStep.tryVisitAndPush, read_bind, read, if_pos fresh]
  rfl

variable (graph) in
/-- The slots and the queue vector track what has been found. -/
structure Tracking (frontier : SeededWorkspaceFrontier Id) (nodes : List Id) (head : Nat) : Prop where
  found : Found graph nodes
  marks : Marks graph (· ≠ frontier.epoch) frontier.marks nodes
  queued : frontier.queue = nodes
  within : head ≤ nodes.length
  head : frontier.head = head

/-- The policy tracks what has been found. -/
theorem tracks [DecidableEq Id] (lawful : graph.Lawful) :
    Tracks graph (graph.containsElement · = true) (Tracking graph) := by
  constructor
  case pop =>
    intro frontier nodes head tracked
    obtain ⟨found, marks, rfl, within, rfl⟩ := tracked
    cases here : frontier.queue[frontier.head]? with
    | none =>
      have past := List.getElem?_eq_none_iff.mp here
      refine ⟨frontier, pop_exhausted here, found, marks, rfl, ?_, ?_⟩ <;> omega
    | some element =>
      obtain ⟨inside, _⟩ := List.getElem?_eq_some_iff.mp here
      refine ⟨_, pop_next here, found, marks, rfl, ?_, ?_⟩
      · exact Nat.min_le_right _ _
      · exact (Nat.min_eq_left inside).symm
  case push =>
    intro frontier nodes head target tracked contained
    obtain ⟨found, marks, rfl, within, rfl⟩ := tracked
    obtain ⟨slot, read, tells⟩ := marks.tells contained
    by_cases unfound : target ∈ frontier.queue
    · rw [enterNode, if_pos unfound]
      exact ⟨frontier, visit_old read (by_contra fun fresh => tells.mp fresh unfound), found, marks,
        rfl, within, rfl⟩
    · rw [enterNode, if_neg unfound]
      refine ⟨_, visit_new read (tells.mpr unfound), found.push contained unfound,
        marks.visit lawful contained (not_not.mpr rfl), rfl, ?_, rfl⟩
      rw [List.length_append]
      omega

end SeededWorkspace

namespace SeededOwned

variable {frontier : SeededOwnedFrontier Id} {target : Id} {slot : UInt8}

/-- Popping past the last element yields nothing. -/
theorem pop_exhausted (exhausted : frontier.queue[frontier.head]? = none) :
    BfsStep.pop frontier = (.ok none, frontier) := by
  simp only [BfsStep.pop, read_bind, exhausted]
  rfl

/-- Popping before the last element yields the element at the head. -/
theorem pop_next {element : Id} (read : frontier.queue[frontier.head]? = some element) :
    BfsStep.pop frontier = (.ok (some element), { frontier with head := frontier.head + 1 }) := by
  simp only [BfsStep.pop, read_bind, read]
  rfl

/-- A visited element is passed over. -/
theorem visit_old (read : frontier.visited[graph.elementIndex target]? = some slot)
    (used : slot ≠ 0) :
    BfsStep.tryVisitAndPush graph target frontier = (.ok (), frontier) := by
  simp only [BfsStep.tryVisitAndPush, read_bind, read, if_neg used]
  rfl

/-- An unvisited element is marked and pushed. -/
theorem visit_new (read : frontier.visited[graph.elementIndex target]? = some slot)
    (fresh : slot = 0) :
    BfsStep.tryVisitAndPush graph target frontier =
      (.ok (), { frontier with
        visited := frontier.visited.set (graph.elementIndex target) 1
        queue := frontier.queue ++ [target] }) := by
  simp only [BfsStep.tryVisitAndPush, read_bind, read, if_pos fresh]
  rfl

variable (graph) in
/-- The slots and the queue vector track what has been found. -/
structure Tracking (frontier : SeededOwnedFrontier Id) (nodes : List Id) (head : Nat) : Prop where
  found : Found graph nodes
  marks : Marks graph (· = 0) frontier.visited nodes
  queued : frontier.queue = nodes
  within : head ≤ nodes.length
  head : frontier.head = head

/-- The policy tracks what has been found. -/
theorem tracks [DecidableEq Id] (lawful : graph.Lawful) :
    Tracks graph (graph.containsElement · = true) (Tracking graph) := by
  constructor
  case pop =>
    intro frontier nodes head tracked
    obtain ⟨found, marks, rfl, within, rfl⟩ := tracked
    cases here : frontier.queue[frontier.head]? with
    | none =>
      have past := List.getElem?_eq_none_iff.mp here
      refine ⟨frontier, pop_exhausted here, found, marks, rfl, ?_, ?_⟩ <;> omega
    | some element =>
      obtain ⟨inside, _⟩ := List.getElem?_eq_some_iff.mp here
      refine ⟨_, pop_next here, found, marks, rfl, ?_, ?_⟩
      · exact Nat.min_le_right _ _
      · exact (Nat.min_eq_left inside).symm
  case push =>
    intro frontier nodes head target tracked contained
    obtain ⟨found, marks, rfl, within, rfl⟩ := tracked
    obtain ⟨slot, read, tells⟩ := marks.tells contained
    by_cases unfound : target ∈ frontier.queue
    · rw [enterNode, if_pos unfound]
      exact ⟨frontier, visit_old read (fun fresh => tells.mp fresh unfound), found, marks, rfl,
        within, rfl⟩
    · rw [enterNode, if_neg unfound]
      refine ⟨_, visit_new read (tells.mpr unfound), found.push contained unfound,
        marks.visit lawful contained (by decide), rfl, ?_, rfl⟩
      rw [List.length_append]
      omega

end SeededOwned

end Bfs

end Oxgraph
