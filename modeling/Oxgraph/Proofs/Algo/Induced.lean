import Oxgraph.Lib.BreadthFirst
import Oxgraph.Spec.Search

/-! Slots by dense index as functions of elements, and the marks of the requested elements. -/

namespace Oxgraph

namespace TopologyView

variable {Id T : Type} {graph : TopologyView Id} {elements : List Id}

/-- Slots by index hold a value for each element that is met. -/
def Holds (graph : TopologyView Id) (elements : List Id) (slots : List T) (values : Id → T) : Prop :=
  ∀ element, graph.Meets elements element → slots[graph.elementIndex element]? = some (values element)

namespace Holds

variable {slots : List T} {values : Id → T}

/-- One value in every slot. -/
theorem replicate (graph : TopologyView Id) (elements : List Id) (value : T) :
    graph.Holds elements (List.replicate graph.elementBound value) fun _ => value := by
  intro element meets
  rw [List.getElem?_replicate, if_pos meets.1]

/-- Writing the slot of an element changes its value, and no other. -/
theorem set [DecidableEq Id] (holds : graph.Holds elements slots values)
    (apart : graph.TellsApart elements) {element : Id} (meets : graph.Meets elements element)
    (value : T) :
    graph.Holds elements (slots.set (graph.elementIndex element) value)
      (Function.update values element value) := by
  intro other met
  by_cases same : other = element
  · subst same
    obtain ⟨inside, _⟩ := List.getElem?_eq_some_iff.mp (holds other met)
    rw [List.getElem?_set_self inside, Function.update_self]
  · have distinct : graph.elementIndex element ≠ graph.elementIndex other := by
      intro equal
      exact same (apart other element met meets equal.symm)
    rw [List.getElem?_set_ne distinct, Function.update_of_ne same]
    exact holds other met

/-- Modifying the slot of an element changes its value, and no other. -/
theorem modify [DecidableEq Id] (holds : graph.Holds elements slots values)
    (apart : graph.TellsApart elements) {element : Id} (meets : graph.Meets elements element)
    (change : T → T) :
    graph.Holds elements (slots.modify (graph.elementIndex element) change)
      (Function.update values element (change (values element))) := by
  intro other met
  rw [List.getElem?_modify, holds other met, Option.map_eq_map, Option.map_some]
  by_cases same : other = element
  · subst same
    rw [if_pos rfl, Function.update_self]
  · have distinct : graph.elementIndex element ≠ graph.elementIndex other := by
      intro equal
      exact same (apart other element met meets equal.symm)
    rw [if_neg distinct, Function.update_of_ne same]

end Holds

section Members

variable [DecidableEq Id] (apart : graph.TellsApart elements)

/-- The requested elements that are in bound, each once, in the order of their first requests. -/
def nodes (graph : TopologyView Id) (elements : List Id) : List Id :=
  firsts (elements.filter fun element => decide (graph.elementIndex element < graph.elementBound))

theorem mem_nodes {element : Id} :
    element ∈ graph.nodes elements ↔ graph.Requested elements element := by
  unfold nodes Requested
  rw [mem_firsts, List.mem_filter, decide_eq_true_eq]

theorem nodup_nodes : (graph.nodes elements).Nodup := nodup_firsts _

include apart

/-- There are no more requested elements than indexes. -/
theorem length_nodes_le : (graph.nodes elements).length ≤ graph.elementBound := by
  have indexes : ((graph.nodes elements).map graph.elementIndex).Nodup := by
    refine nodup_nodes.map_on fun left member right other same => ?_
    exact apart left right (mem_nodes.mp member).meets (mem_nodes.mp other).meets same
  have below : (graph.nodes elements).map graph.elementIndex ⊆ List.range graph.elementBound := by
    intro index member
    obtain ⟨element, inside, rfl⟩ := List.mem_map.mp member
    exact List.mem_range.mpr (mem_nodes.mp inside).2
  have count := (indexes.subperm below).length_le
  rwa [List.length_map, List.length_range] at count

variable {member : List Bool}

/-- Marking an element marks it and what was marked before. -/
theorem Holds.mark {found : List Id}
    (holds : graph.Holds elements member fun element => decide (element ∈ found)) {element : Id}
    (meets : graph.Meets elements element) :
    graph.Holds elements (member.set (graph.elementIndex element) true)
      fun other => decide (other ∈ found ++ [element]) := by
  have marked := holds.set apart meets true
  intro other met
  rw [marked other met]
  by_cases same : other = element
  · subst same
    simp
  · rw [Function.update_of_ne same]
    simp [same]

/-- Collecting requests lists those in bound and marks what is listed. -/
theorem foldl_collectMember {requests : List Id} (inside : ∀ element ∈ requests, element ∈ elements)
    {collected : List Bool × List Id}
    (holds : graph.Holds elements collected.1 fun element => decide (element ∈ collected.2)) :
    (requests.foldl (collectMember graph) collected).2 =
        (requests.filter fun element =>
          decide (graph.elementIndex element < graph.elementBound)).foldl enterNode collected.2 ∧
      graph.Holds elements (requests.foldl (collectMember graph) collected).1 fun element =>
        decide (element ∈ (requests.foldl (collectMember graph) collected).2) := by
  induction requests generalizing collected with
  | nil => exact ⟨rfl, holds⟩
  | cons element rest ih =>
    have others := fun other later => inside other (List.mem_cons_of_mem _ later)
    rw [List.foldl_cons, List.filter_cons]
    -- A request out of bound has no slot, and is left out.
    by_cases inBound : graph.elementIndex element < graph.elementBound
    · have meets : graph.Meets elements element := ⟨inBound, .inl (inside element List.mem_cons_self)⟩
      rw [if_pos (decide_eq_true inBound), List.foldl_cons, enterNode, collectMember,
        holds element meets]
      by_cases known : element ∈ collected.2
      · rw [if_pos known, if_neg (by simp [known])]
        exact ih others holds
      · rw [if_neg known, if_pos (by simp [known, inBound])]
        exact @ih others
          (collected.1.set (graph.elementIndex element) true, collected.2 ++ [element])
          (holds.mark apart meets)
    · rw [if_neg (by simpa using inBound), collectMember, if_neg fun both => inBound both.1]
      exact ih others holds

/-- The nodes that are collected are the requested elements, and those are marked. -/
theorem collectMembers_spec :
    (collectMembers graph elements).2 = graph.nodes elements ∧
      graph.Holds elements (collectMembers graph elements).1
        fun element => decide (element ∈ graph.nodes elements) := by
  have blank : graph.Holds elements (List.replicate graph.elementBound false)
      fun element => decide (element ∈ ([] : List Id)) := by
    simpa using Holds.replicate graph elements false
  obtain ⟨collected, holds⟩ := @foldl_collectMember Id graph elements _ apart elements
    (fun _ member => member) (List.replicate graph.elementBound false, []) blank
  have same : (collectMembers graph elements).2 = graph.nodes elements := collected
  refine ⟨same, ?_⟩
  rw [← same]
  exact holds

/-- The requested elements are marked. -/
theorem markMembers_spec : graph.Holds elements (markMembers graph elements)
    fun element => decide (element ∈ graph.nodes elements) := by
  -- The marks so far are of the requests so far that are in bound.
  have general {requests : List Id} (inside : ∀ element ∈ requests, element ∈ elements)
      {found : List Id} {member : List Bool}
      (holds : graph.Holds elements member fun element => decide (element ∈ found)) :
      graph.Holds elements (requests.foldl (markMember graph) member)
        fun element => decide (element ∈ found ++ requests.filter fun element =>
          decide (graph.elementIndex element < graph.elementBound)) := by
    induction requests generalizing found member with
    | nil => simpa using holds
    | cons element rest ih =>
      have others := fun other later => inside other (List.mem_cons_of_mem _ later)
      rw [List.foldl_cons, List.filter_cons, markMember]
      by_cases inBound : graph.elementIndex element < graph.elementBound
      · have meets : graph.Meets elements element :=
          ⟨inBound, .inl (inside element List.mem_cons_self)⟩
        rw [if_pos inBound, if_pos (decide_eq_true inBound), List.append_cons]
        exact ih others (holds.mark apart meets)
      · rw [if_neg inBound, if_neg (by simpa using inBound)]
        exact ih others holds
  have blank : graph.Holds elements (List.replicate graph.elementBound false)
      fun element => decide (element ∈ ([] : List Id)) := by
    simpa using Holds.replicate graph elements false
  have marked := general (fun _ member => member) blank
  intro element meets
  refine (marked element meets).trans (congrArg some (decide_eq_decide.mpr ?_))
  rw [List.nil_append, nodes, mem_firsts]

omit apart in
/-- The marks tell of an element that is met, or out of bound, whether it is requested. -/
theorem isMember_eq
    (holds : graph.Holds elements member fun element => decide (element ∈ graph.nodes elements))
    {element : Id}
    (meets : graph.elementIndex element < graph.elementBound → graph.Meets elements element) :
    graph.isMember member element = decide (element ∈ graph.nodes elements) := by
  unfold isMember
  dsimp only
  by_cases inBound : graph.elementIndex element < graph.elementBound
  · rw [decide_eq_true inBound, Bool.true_and, List.getD_eq_getElem?_getD,
      holds element (meets inBound), Option.getD_some]
  · have absent : element ∉ graph.nodes elements := fun member => inBound (mem_nodes.mp member).2
    rw [decide_eq_false inBound, Bool.false_and, decide_eq_false absent]

omit apart in
/-- Among the successors of a requested element the marks tell which are requested. -/
theorem isMember_successor
    (holds : graph.Holds elements member fun element => decide (element ∈ graph.nodes elements))
    {node successor : Id} (requested : graph.Requested elements node)
    (reached : successor ∈ graph.elementSuccessors node) :
    graph.isMember member successor = decide (successor ∈ graph.nodes elements) :=
  isMember_eq holds (requested.meets_successor reached)

omit apart in
/-- The member successors of a requested element are its induced row. -/
theorem filter_isMember
    (holds : graph.Holds elements member fun element => decide (element ∈ graph.nodes elements))
    {node : Id} (requested : graph.Requested elements node) :
    (graph.elementSuccessors node).filter (graph.isMember member) =
      graph.inducedRow elements node := by
  unfold inducedRow
  refine List.filter_congr fun successor reached => ?_
  rw [isMember_successor holds requested reached]
  exact decide_eq_decide.mpr mem_nodes

omit apart in
/-- The induced row of an element holds the requested ones among its successors. -/
theorem mem_inducedRow {node successor : Id} : successor ∈ graph.inducedRow elements node ↔
    successor ∈ graph.elementSuccessors node ∧ graph.Requested elements successor := by
  unfold inducedRow
  rw [List.mem_filter, decide_eq_true_eq]
  rfl

omit apart in
/-- The targets of induced edges are nodes. -/
theorem inducedRow_within {source target : Id} (member : target ∈ graph.inducedRow elements source) :
    target ∈ graph.nodes elements :=
  mem_nodes.mpr (mem_inducedRow.mp member).2

end Members

end TopologyView

end Oxgraph
