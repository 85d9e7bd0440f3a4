import Mathlib.Algebra.GroupWithZero.Nat
import Mathlib.Logic.Function.Basic
import Mathlib.Logic.Relation
import Mathlib.Data.List.Nodup
import Mathlib.Data.List.Pairwise
import Mathlib.Data.List.Perm.Subperm
import Mathlib.Order.Basic
import Mathlib.Algebra.Order.BigOperators.Group.List
import Mathlib.Algebra.Order.Group.Nat

/-! Depth-first search for strongly connected components, with its invariant. -/

namespace Oxgraph

open Function (update update_of_ne update_self)
open List (map_cons mem_append mem_cons mem_cons_of_mem mem_cons_self pairwise_cons sum_cons)

namespace Tarjan

/-- A search under way: discovery numbers, lowlinks, and the stacks of nodes, the latest first. -/
structure Search (N : Type) where
  order : N → Nat
  low : N → Nat
  -- The discovered nodes without a component.
  stack : List N
  components : List (List N)
  counter : Nat
  -- The nodes being expanded, each with the neighbours that are left.
  work : List (N × List N)

variable {N : Type}

namespace Search

/-- Nothing is discovered yet. -/
def empty : Search N where
  order _ := 0
  low _ := 0
  stack := []
  components := []
  counter := 0
  work := []

variable (search : Search N)

/-- The nodes that have a component. -/
def settled : List N := search.components.flatten

/-- The nodes being expanded. -/
def opens : List N := search.work.map Prod.fst

/-- A node that has been discovered. -/
def Found (node : N) : Prop := node ∈ search.stack ∨ node ∈ search.settled

/-- A node is the last open one that was discovered before another, or is the other. -/
def Nearest (node other : N) : Prop :=
  search.order node ≤ search.order other ∧
    ∀ middle ∈ search.opens, search.order middle ≤ search.order other →
      search.order middle ≤ search.order node

/-- A neighbour that a node has been related to. -/
def Scanned (node neighbour : N) : Prop :=
  (neighbour ∈ search.stack ∧ search.low node ≤ search.order neighbour) ∨
    neighbour ∈ search.settled

section

variable [DecidableEq N] (row : N → List N)

instance (node : N) : Decidable (search.Found node) :=
  inferInstanceAs (Decidable (_ ∨ _))

variable (node : N)

/-- Numbers a new node, and opens it. -/
def discover : Search N :=
  { search with
    order := update search.order node search.counter
    low := update search.low node search.counter
    stack := node :: search.stack
    counter := search.counter + 1
    work := (node, row node) :: search.work }

/-- Lowers the lowlink of a node to a value below it. -/
def lower (value : Nat) : Search N :=
  if value < search.low node then { search with low := update search.low node value }
  else search

/-- Relates a node to a neighbour. -/
def advance (node neighbour : N) : Search N :=
  if neighbour ∈ search.stack then search.lower node (search.order neighbour)
  else if neighbour ∈ search.settled then search
  else search.discover row neighbour

/-- Takes the component of a root off the stack. -/
def pop (root : N) : Search N :=
  { search with
    stack := (search.stack.dropWhile (· != root)).tail
    components := search.components ++ [search.stack.takeWhile (· != root) ++ [root]] }

/-- Lowers the lowlink of the node that is expanded next to that of a node it led to. -/
def propagate : Search N :=
  match search.work with
  | [] => search
  | (parent, _) :: _ => search.lower parent (search.low node)

/-- Closes a node, and takes its component when it is a root. -/
def close (frames : List (N × List N)) : Search N :=
  let popped := if search.low node = search.order node then search.pop node else search
  { popped with work := frames }.propagate node

/-- Relates the node on top to its next neighbour, or closes it. -/
def step : Search N :=
  match search.work with
  | [] => search
  | (node, []) :: frames => search.close node frames
  | (node, neighbour :: rest) :: frames =>
    { search with work := (node, rest) :: frames }.advance row node neighbour

/-- The steps that are left: one for each open node and neighbour, also of nodes to discover. -/
def left (nodes : List N) : Nat :=
  (search.work.map fun frame => frame.2.length + 1).sum +
    (nodes.map fun node => if search.Found node then 0 else (row node).length + 1).sum

-- Lowering changes one lowlink only.

@[simp] theorem work_lower (value : Nat) :
    (search.lower node value).work = search.work := by
  unfold lower
  split <;> rfl

@[simp] theorem stack_lower (value : Nat) :
    (search.lower node value).stack = search.stack := by
  unfold lower
  split <;> rfl

@[simp] theorem order_lower (value : Nat) :
    (search.lower node value).order = search.order := by
  unfold lower
  split <;> rfl

@[simp] theorem components_lower (value : Nat) :
    (search.lower node value).components = search.components := by
  unfold lower
  split <;> rfl

@[simp] theorem opens_lower (value : Nat) :
    (search.lower node value).opens = search.opens :=
  congrArg (List.map Prod.fst) (search.work_lower node value)

theorem found_lower (value : Nat) (other : N) :
    (search.lower node value).Found other ↔ search.Found other := by
  rw [Found, settled, stack_lower, components_lower]
  exact Iff.rfl

/-- The lowlink that was lowered is not above the value, and others are as before. -/
theorem low_lower (value : Nat) :
    (search.lower node value).low node ≤ value ∧
      ∀ other, other ≠ node → (search.lower node value).low other = search.low other := by
  unfold lower
  split
  case isTrue less =>
    exact ⟨Nat.le_of_eq (update_self _ _ _),
      fun other differs => update_of_ne differs _ _⟩
  case isFalse more => exact ⟨Nat.le_of_not_lt more, fun _ _ => rfl⟩

/-- No lowlink rises. -/
theorem low_lower_le (value : Nat) (other : N) :
    (search.lower node value).low other ≤ search.low other := by
  by_cases same : other = node
  · unfold lower
    split
    case isTrue less =>
      show update search.low node value other ≤ search.low other
      rw [same, update_self]
      exact Nat.le_of_lt less
    case isFalse => exact Nat.le_refl _
  · exact Nat.le_of_eq ((search.low_lower node value).2 other same)

/-- Nodes stay related when a lowlink is lowered. -/
theorem scanned_lower (value : Nat) {other neighbour : N}
    (related : search.Scanned other neighbour) :
    (search.lower node value).Scanned other neighbour := by
  rcases related with ⟨listed, below⟩ | member
  · refine .inl ⟨(search.stack_lower node value).symm ▸ listed, ?_⟩
    rw [order_lower]
    exact Nat.le_trans (search.low_lower_le node value other) below
  · refine .inr ?_
    rw [settled, components_lower]
    exact member

/-- Closing a node leaves the frames below it. -/
@[simp] theorem work_close (frames : List (N × List N)) :
    (search.close node frames).work = frames := by
  unfold close
  generalize (if search.low node = search.order node then search.pop node else search) = popped
  unfold propagate
  dsimp only
  split
  · rfl
  · exact work_lower _ _ _

end

end Search

section

variable (row : N → List N)

/-- A node leads to another along edges. -/
def Reach : N → N → Prop := Relation.ReflTransGen fun node neighbour => neighbour ∈ row node

variable (nodes : List N)

/-- Each component in turn is a class of mutual reachability, and leads to those before it only. -/
inductive Settled : List (List N) → Prop
  | nil : Settled []
  | snoc {components : List (List N)} (before : Settled components) (component : List N)
      (some : component ≠ []) (nodup : component.Nodup) (known : ∀ node ∈ component, node ∈ nodes)
      (apart : ∀ node ∈ component, node ∉ components.flatten)
      (mutual_ : ∀ node ∈ component, ∀ other,
        other ∈ component ↔ Reach row node other ∧ Reach row other node)
      (closed : ∀ node ∈ component, ∀ neighbour ∈ row node,
        neighbour ∈ component ∨ neighbour ∈ components.flatten) :
      Settled (components ++ [component])

/-- What holds of a search between any two steps. -/
structure Sound (search : Search N) : Prop where
  sorted : search.stack.Pairwise fun later earlier => search.order earlier < search.order later
  counted : ∀ node ∈ search.stack, search.order node < search.counter
  older : ∀ node ∈ search.settled, search.order node < search.counter
  count : search.counter = search.stack.length + search.settled.length
  known : ∀ node ∈ search.stack, node ∈ nodes
  apart : ∀ node ∈ search.stack, node ∉ search.settled
  -- Open nodes lead to everything that was discovered after them.
  opened : search.opens.Sublist search.stack
  reaches : ∀ node ∈ search.opens, ∀ other ∈ search.stack,
    search.order node ≤ search.order other → Reach row node other
  -- A lowlink is the number of a node that is reached, and a closed node reaches a lower one.
  low_le : ∀ node ∈ search.stack, search.low node ≤ search.order node
  low_reach : ∀ node ∈ search.stack, ∃ other ∈ search.stack,
    search.order other = search.low node ∧ Reach row node other
  low_lt : ∀ node ∈ search.stack, node ∉ search.opens → search.low node < search.order node
  -- The lowlink of an open node is below those from it up to the next open node.
  covers : ∀ node ∈ search.opens, ∀ other ∈ search.stack, search.Nearest node other →
    search.low node ≤ search.low other
  -- A node is related to the neighbours that are not left, and a closed one to all.
  pending : ∀ frame ∈ search.work, ∀ neighbour ∈ frame.2, neighbour ∈ row frame.1
  scanned : ∀ frame ∈ search.work, ∀ neighbour ∈ row frame.1,
    neighbour ∈ frame.2 ∨ search.Scanned frame.1 neighbour
  closed : ∀ node ∈ search.stack, node ∉ search.opens → ∀ neighbour ∈ row node,
    search.Scanned node neighbour
  settled : Settled row nodes search.components

end

section

variable {row : N → List N} {nodes : List N}

namespace Settled

variable {components : List (List N)} (settled : Settled row nodes components)
include settled

theorem known : ∀ node ∈ components.flatten, node ∈ nodes := by
  induction settled with
  | nil => exact fun _ never => nomatch never
  | snoc before component some nodup known apart mutual_ closed ih =>
    intro node member
    rw [List.flatten_append, List.flatten_singleton] at member
    rcases mem_append.mp member with earlier | last
    · exact ih node earlier
    · exact known node last

theorem nodup : components.flatten.Nodup := by
  induction settled with
  | nil => exact List.nodup_nil
  | snoc before component some nodup known apart mutual_ closed ih =>
    rw [List.flatten_append, List.flatten_singleton]
    refine List.nodup_append.mpr ⟨ih, nodup, ?_⟩
    rintro node earlier _ last rfl
    exact apart node last earlier

/-- A settled node leads to settled nodes only. -/
theorem closed : ∀ node ∈ components.flatten, ∀ neighbour ∈ row node,
    neighbour ∈ components.flatten := by
  induction settled with
  | nil => exact fun _ never => nomatch never
  | snoc before component some nodup known apart mutual_ closed ih =>
    intro node member neighbour edge
    rw [List.flatten_append, List.flatten_singleton] at member ⊢
    rcases mem_append.mp member with earlier | last
    · exact List.mem_append_left _ (ih node earlier neighbour edge)
    · rcases closed node last neighbour edge with inside | earlier
      · exact List.mem_append_right _ inside
      · exact List.mem_append_left _ earlier

/-- Whatever a settled node reaches is settled. -/
theorem reached {node other : N} (member : node ∈ components.flatten)
    (reach : Reach row node other) : other ∈ components.flatten := by
  induction reach with
  | refl => exact member
  | tail _ edge ih => exact settled.closed _ ih _ edge

end Settled

namespace Sound

section

variable {search : Search N} (sound : Sound row nodes search)
include sound

theorem nodup_stack : search.stack.Nodup := by
  refine sound.sorted.imp fun {later earlier} less same => ?_
  rw [same] at less
  exact Nat.lt_irrefl _ less

/-- Open nodes are on the stack. -/
theorem mem_stack {node : N} (member : node ∈ search.opens) : node ∈ search.stack :=
  sound.opened.subset member

/-- Nodes on the stack have different numbers. -/
theorem order_injective {node other : N} (first : node ∈ search.stack)
    (second : other ∈ search.stack) (same : search.order node = search.order other) :
    node = other := by
  by_contra differs
  have symmetric : Std.Symm fun left right => search.order left ≠ search.order right :=
    ⟨fun _ _ differ => differ.symm⟩
  have numbers : search.stack.Pairwise fun left right => search.order left ≠ search.order right :=
    sound.sorted.imp fun less => Nat.ne_of_gt less
  exact numbers.forall first second differs same

/-- Numbers fall along the open nodes. -/
theorem sorted_opens :
    search.opens.Pairwise fun later earlier => search.order earlier < search.order later :=
  sound.sorted.sublist sound.opened

/-- Other neighbours may be left when every open node is related to the rest. -/
theorem withWork {work : List (N × List N)} (same : work.map Prod.fst = search.opens)
    (pending : ∀ frame ∈ work, ∀ neighbour ∈ frame.2, neighbour ∈ row frame.1)
    (scanned : ∀ frame ∈ work, ∀ neighbour ∈ row frame.1,
      neighbour ∈ frame.2 ∨ search.Scanned frame.1 neighbour) :
    Sound row nodes { search with work } := by
  -- All else is read off the open nodes, which stay the same.
  have opens : Search.opens { search with work } = search.opens := same
  refine { sound with
    opened := ?opened
    reaches := ?reaches
    low_lt := ?low_lt
    covers := ?covers
    pending
    scanned
    closed := ?closed }
  case opened =>
    rw [opens]
    exact sound.opened
  case reaches =>
    rw [opens]
    exact sound.reaches
  case low_lt =>
    rw [opens]
    exact sound.low_lt
  case covers =>
    intro node member other inside nearest
    rw [opens] at member
    refine sound.covers node member other inside ⟨nearest.1, fun middle between => ?_⟩
    exact nearest.2 middle (opens ▸ between)
  case closed =>
    rw [opens]
    exact sound.closed

end

-- Lowering a lowlink.

section

variable [DecidableEq N] {search : Search N} (sound : Sound row nodes search)
include sound

/-- The lowlink of an open node may be lowered to the number of a node that it leads to. -/
theorem lower {node : N} (opened : node ∈ search.opens) {value : Nat}
    (reached : ∃ other ∈ search.stack, search.order other = value ∧ Reach row node other) :
    Sound row nodes (search.lower node value) := by
  -- No lowlink rises, so what is related stays so.
  have smaller := search.low_lower_le node value
  have related {other neighbour : N} := @Search.scanned_lower _ search _ node value other neighbour
  by_cases less : value < search.low node
  · have lowered : search.lower node value =
        { search with low := update search.low node value } := if_pos less
    simp only [lowered] at smaller related ⊢
    refine { sound with
      low_le := fun other listed => Nat.le_trans (smaller other) (sound.low_le other listed)
      low_reach := ?low_reach
      low_lt := fun other listed shut =>
        Nat.lt_of_le_of_lt (smaller other) (sound.low_lt other listed shut)
      covers := ?covers
      scanned := fun frame inside neighbour edge =>
        (sound.scanned frame inside neighbour edge).imp_right related
      closed := fun other listed shut neighbour edge =>
        related (sound.closed other listed shut neighbour edge) }
    case low_reach =>
      intro other listed
      by_cases same : other = node
      · subst same
        dsimp only
        rw [update_self]
        exact reached
      · dsimp only
        rw [update_of_ne same]
        exact sound.low_reach other listed
    case covers =>
      intro first inside other listed nearest
      by_cases same : other = node
      · -- An open node is nearest to itself, so nothing else covers it.
        subst same
        have back := nearest.2 other opened (Nat.le_refl _)
        have equal := sound.order_injective (sound.mem_stack inside) listed
          (Nat.le_antisymm nearest.1 back)
        exact Nat.le_of_eq (congrArg _ equal)
      · dsimp only
        rw [update_of_ne same]
        exact Nat.le_trans (smaller first) (sound.covers first inside other listed nearest)
  · rwa [Search.lower, if_neg less]

end

-- Discovering a node.

section

variable [DecidableEq N] {search after : Search N} {node : N} {work : List (N × List N)}
  (discovered : after = Search.discover { search with work } row node)
include discovered

/-- The new node is on top of the stack, open, and numbered next. -/
theorem discover_top (same : work.map Prod.fst = search.opens) :
    after.stack = node :: search.stack ∧ after.opens = node :: search.opens ∧
      after.order node = search.counter ∧ after.low node = search.counter := by
  subst discovered
  exact ⟨rfl, congrArg (node :: ·) same, update_self _ _ _, update_self _ _ _⟩

variable (sound : Sound row nodes search) (fresh : ¬ search.Found node)
include fresh

/-- Nodes that were discovered before keep their numbers and lowlinks. -/
theorem discover_kept {other : N} (listed : other ∈ search.stack) :
    after.order other = search.order other ∧ after.low other = search.low other := by
  subst discovered
  have apart : other ≠ node := fun equal => fresh (.inl (equal ▸ listed))
  exact ⟨update_of_ne apart _ _, update_of_ne apart _ _⟩

/-- What was related stays related. -/
theorem discover_related {other neighbour : N} (listed : other ∈ search.stack)
    (before : search.Scanned other neighbour) : after.Scanned other neighbour := by
  have low := (discover_kept discovered fresh listed).2
  rcases before with ⟨onStack, below⟩ | settled
  · have order := (discover_kept discovered fresh onStack).1
    subst discovered
    exact .inl ⟨mem_cons_of_mem _ onStack, by rwa [low, order]⟩
  · subst discovered
    exact .inr settled

include sound

/-- The new node has the last number. -/
theorem discover_last (same : work.map Prod.fst = search.opens) {other : N}
    (listed : other ∈ search.stack) : after.order other < after.order node := by
  rw [(discover_kept discovered fresh listed).1, (discover_top discovered same).2.2.1]
  exact sound.counted other listed

/-- Open nodes lead to what was discovered after them, when they lead to the new node. -/
theorem discover_reaches (same : work.map Prod.fst = search.opens)
    (leads : ∀ opened ∈ search.opens, Reach row opened node) :
    ∀ first ∈ after.opens, ∀ other ∈ after.stack, after.order first ≤ after.order other →
      Reach row first other := by
  obtain ⟨stack, opens, _⟩ := discover_top discovered same
  rw [stack, opens]
  intro first open_ other listed before
  rcases mem_cons.mp listed with rfl | onStack
  · rcases mem_cons.mp open_ with rfl | earlier
    · exact .refl
    · exact leads first earlier
  · rcases mem_cons.mp open_ with rfl | earlier
    · exact absurd (discover_last discovered sound fresh same onStack) (Nat.not_lt.mpr before)
    · rw [(discover_kept discovered fresh onStack).1,
        (discover_kept discovered fresh (sound.mem_stack earlier)).1] at before
      exact sound.reaches first earlier other onStack before

/-- The lowlink of an open node is still below those from it up to the next open node. -/
theorem discover_covers (same : work.map Prod.fst = search.opens) :
    ∀ first ∈ after.opens, ∀ other ∈ after.stack, after.Nearest first other →
      after.low first ≤ after.low other := by
  obtain ⟨stack, opens, _⟩ := discover_top discovered same
  intro first open_ other listed ⟨before, last⟩
  rw [opens] at open_ last
  rw [stack] at listed
  have later {other : N} (listed : other ∈ search.stack) :=
    discover_last discovered sound fresh same listed
  rcases mem_cons.mp open_ with rfl | earlier
  · rcases mem_cons.mp listed with rfl | onStack
    · exact Nat.le_refl _
    · exact absurd (later onStack) (Nat.not_lt.mpr before)
  · have firstListed := sound.mem_stack earlier
    rcases mem_cons.mp listed with rfl | onStack
    · -- The new node is open, so no earlier one is nearest to it.
      exact absurd (later firstListed) (Nat.not_lt.mpr (last other mem_cons_self (Nat.le_refl _)))
    · obtain ⟨order, low⟩ := discover_kept discovered fresh firstListed
      obtain ⟨orderOther, lowOther⟩ := discover_kept discovered fresh onStack
      rw [low, lowOther]
      rw [order, orderOther] at before
      refine sound.covers first earlier other onStack ⟨before, fun middle between less => ?_⟩
      have kept := last middle (mem_cons_of_mem _ between)
      rw [(discover_kept discovered fresh (sound.mem_stack between)).1, orderOther, order] at kept
      exact kept less

omit discovered in
/-- A new node is discovered when every open node leads to it. -/
theorem discover (inside : node ∈ nodes)
    (leads : ∀ opened ∈ search.opens, Reach row opened node)
    (same : work.map Prod.fst = search.opens)
    (pending : ∀ frame ∈ work, ∀ neighbour ∈ frame.2, neighbour ∈ row frame.1)
    (scanned : ∀ frame ∈ work, ∀ neighbour ∈ row frame.1,
      neighbour ∈ frame.2 ∨ search.Scanned frame.1 neighbour ∨ neighbour = node) :
    Sound row nodes (Search.discover { search with work } row node) := by
  obtain ⟨unlisted, unsettled⟩ := not_or.mp fresh
  obtain ⟨after, discovered⟩ : ∃ after, after = Search.discover { search with work } row node :=
    ⟨_, rfl⟩
  obtain ⟨stack, opens, number, lowlink⟩ := discover_top discovered same
  have last {other : N} (listed : other ∈ search.stack) :=
    discover_last discovered sound fresh same listed
  have kept {other : N} (listed : other ∈ search.stack) :=
    discover_kept discovered fresh listed
  have related {other neighbour : N} (listed : other ∈ search.stack) :=
    @discover_related N row _ search after node work discovered fresh other neighbour listed
  have counter : after.counter = search.counter + 1 := discovered ▸ rfl
  have settled : after.settled = search.settled := discovered ▸ rfl
  have frames : after.work = (node, row node) :: work := discovered ▸ rfl
  have reaches := discover_reaches discovered sound fresh same leads
  have covers := discover_covers discovered sound fresh same
  rw [← discovered]
  constructor
  case sorted =>
    rw [stack]
    refine pairwise_cons.mpr ⟨fun other listed => last listed, ?_⟩
    refine sound.sorted.imp_of_mem fun {later earlier} first second less => ?_
    rwa [(kept first).1, (kept second).1]
  case counted =>
    rw [stack, counter]
    refine List.forall_mem_cons.mpr ⟨by rw [number]; exact Nat.lt_succ_self _, ?_⟩
    intro other before
    rw [(kept before).1]
    exact Nat.lt_succ_of_lt (sound.counted other before)
  case older =>
    rw [settled, counter]
    intro other member
    have differs : other ≠ node := fun same => unsettled (same ▸ member)
    rw [discovered]
    show update search.order node search.counter other < search.counter + 1
    rw [update_of_ne differs]
    exact Nat.lt_succ_of_lt (sound.older other member)
  case count =>
    rw [counter, stack, settled, sound.count, List.length_cons]
    omega
  case known =>
    rw [stack]
    exact List.forall_mem_cons.mpr ⟨inside, sound.known⟩
  case apart =>
    rw [stack, settled]
    exact List.forall_mem_cons.mpr ⟨unsettled, sound.apart⟩
  case opened =>
    rw [opens, stack]
    exact sound.opened.cons_cons node
  case reaches => exact reaches
  case low_le =>
    rw [stack]
    refine List.forall_mem_cons.mpr ⟨by rw [lowlink, number], ?_⟩
    intro other before
    rw [(kept before).1, (kept before).2]
    exact sound.low_le other before
  case low_reach =>
    rw [stack]
    refine List.forall_mem_cons.mpr
      ⟨⟨node, mem_cons_self, number.trans lowlink.symm, .refl⟩, ?_⟩
    intro other before
    obtain ⟨target, onStack, low, reach⟩ := sound.low_reach other before
    exact ⟨target, mem_cons_of_mem _ onStack,
      (kept onStack).1.trans (low.trans (kept before).2.symm), reach⟩
  case low_lt =>
    rw [stack, opens]
    intro other listed shut
    obtain ⟨differs, shut⟩ := not_or.mp (mt mem_cons.mpr shut)
    have before := (mem_cons.mp listed).resolve_left differs
    rw [(kept before).1, (kept before).2]
    exact sound.low_lt other before shut
  case covers => exact covers
  case pending =>
    rw [frames]
    exact List.forall_mem_cons.mpr ⟨fun neighbour edge => edge, pending⟩
  case scanned =>
    rw [frames]
    refine List.forall_mem_cons.mpr ⟨fun neighbour edge => .inl edge, ?_⟩
    intro frame before neighbour edge
    have listed : frame.1 ∈ search.stack := sound.mem_stack (same ▸ List.mem_map_of_mem before)
    rcases scanned frame before neighbour edge with left | earlier | rfl
    · exact .inl left
    · exact .inr (related listed earlier)
    · -- The new node has a higher number than any lowlink.
      refine .inr (.inl ⟨stack ▸ mem_cons_self, ?_⟩)
      rw [(kept listed).2]
      exact Nat.le_trans (sound.low_le _ listed) (Nat.le_of_lt ((kept listed).1 ▸ last listed))
  case closed =>
    rw [stack, opens]
    intro other listed shut neighbour edge
    obtain ⟨differs, shut⟩ := not_or.mp (mt mem_cons.mpr shut)
    have before := (mem_cons.mp listed).resolve_left differs
    exact related before (sound.closed other before shut neighbour edge)
  case settled => exact discovered ▸ sound.settled

end

-- Closing a node.

section

variable {search : Search N} (sound : Sound row nodes search) {node : N}
  {frames : List (N × List N)} (top : search.work = (node, []) :: frames)
include sound top

omit sound in
theorem opens_eq : search.opens = node :: frames.map Prod.fst := by
  rw [Search.opens, top, map_cons]

theorem top_listed : node ∈ search.stack :=
  sound.mem_stack (opens_eq top ▸ mem_cons_self)

/-- The other open nodes were discovered before the one on top. -/
theorem order_lt_top {other : N} (below : other ∈ frames.map Prod.fst) :
    search.order other < search.order node := by
  have sorted := sound.sorted_opens
  rw [opens_eq top] at sorted
  exact (pairwise_cons.mp sorted).1 other below

/-- A node on top is the last open one before every node that was discovered after it. -/
theorem nearest_top {other : N} (after : search.order node ≤ search.order other) :
    search.Nearest node other := by
  refine ⟨after, fun middle between _ => ?_⟩
  rw [opens_eq top] at between
  rcases mem_cons.mp between with rfl | below
  · exact Nat.le_refl _
  · exact Nat.le_of_lt (sound.order_lt_top top below)

/-- The node on top is related to all its neighbours. -/
theorem scanned_top {neighbour : N} (edge : neighbour ∈ row node) :
    search.Scanned node neighbour := by
  rcases sound.scanned _ (top ▸ mem_cons_self) neighbour edge with never | related
  · cases never
  · exact related

/-- A node that was discovered no earlier than the one on top is related to all its neighbours. -/
theorem scanned_after {other neighbour : N} (listed : other ∈ search.stack)
    (after : search.order node ≤ search.order other) (edge : neighbour ∈ row other) :
    search.Scanned other neighbour := by
  by_cases shut : other ∈ search.opens
  · rw [opens_eq top] at shut
    rcases mem_cons.mp shut with rfl | below
    · exact sound.scanned_top top edge
    · exact absurd (sound.order_lt_top top below) (Nat.not_lt.mpr after)
  · exact sound.closed other listed shut neighbour edge

/-- A node that is no root closes under a parent whose lowlink is below its own. -/
theorem shut (unrooted : search.low node ≠ search.order node)
    (lowered : ∀ parent rest others, frames = (parent, rest) :: others →
      search.low parent ≤ search.low node) :
    Sound row nodes { search with work := frames } := by
  have opens : Search.opens { search with work := frames } = frames.map Prod.fst := rfl
  have subset {other : N} (open_ : other ∈ frames.map Prod.fst) : other ∈ search.opens := by
    rw [opens_eq top]
    exact mem_cons_of_mem _ open_
  have frameIn {frame : N × List N} (inside : frame ∈ frames) : frame ∈ search.work := by
    rw [top]
    exact mem_cons_of_mem _ inside
  -- A node that is not open now is the one that closes, or was not open before.
  have shut_before {other : N} (shut : other ∉ frames.map Prod.fst) (differs : other ≠ node) :
      other ∉ search.opens := by
    rw [opens_eq top, mem_cons, not_or]
    exact ⟨differs, shut⟩
  refine { sound with
    opened := ?opened
    reaches := fun first open_ => sound.reaches first (subset open_)
    low_lt := ?low_lt
    covers := ?covers
    pending := fun frame inside => sound.pending frame (frameIn inside)
    scanned := fun frame inside => sound.scanned frame (frameIn inside)
    closed := ?closed }
  case opened =>
    have whole := sound.opened
    rw [opens_eq top] at whole
    exact List.sublist_of_cons_sublist whole
  case low_lt =>
    intro other listed shut
    by_cases same : other = node
    · subst same
      exact Nat.lt_of_le_of_ne (sound.low_le other listed) unrooted
    · exact sound.low_lt other listed (shut_before shut same)
  case covers =>
    intro first open_ other listed nearest
    obtain ⟨before, last⟩ := nearest
    rcases Nat.lt_or_ge (search.order other) (search.order node) with earlier | after
    · refine sound.covers first (subset open_) other listed ⟨before, fun middle between less => ?_⟩
      rw [opens_eq top] at between
      rcases mem_cons.mp between with rfl | below
      · exact absurd earlier (Nat.not_lt.mpr less)
      · exact last middle below less
    · -- The parent is now the nearest, and its lowlink is below that of the node on top.
      have closest := sound.covers node (opens_eq top ▸ mem_cons_self) other listed
        (sound.nearest_top top after)
      cases frames with
      | nil => cases open_
      | cons frame others =>
        obtain ⟨parent, rest⟩ := frame
        have parentIn : parent ∈ ((parent, rest) :: others).map Prod.fst := mem_cons_self
        have parentLess := sound.order_lt_top top parentIn
        have back : search.order parent ≤ search.order first :=
          last parent parentIn (Nat.le_trans (Nat.le_of_lt parentLess) after)
        have same : first = parent := by
          rcases mem_cons.mp open_ with same | deeper
          · exact same
          · have sorted := sound.sorted_opens
            rw [opens_eq top, map_cons] at sorted
            have less := (pairwise_cons.mp (pairwise_cons.mp sorted).2).1 first deeper
            exact absurd less (Nat.not_lt.mpr back)
        rw [same]
        exact Nat.le_trans (lowered parent rest others rfl) closest
  case closed =>
    intro other listed shut neighbour edge
    by_cases same : other = node
    · subst same
      exact sound.scanned_top top edge
    · exact sound.closed other listed (shut_before shut same) neighbour edge

end

-- The component of a root.

section

variable {search : Search N} (sound : Sound row nodes search) {root : N}
  {frames : List (N × List N)} (top : search.work = (root, []) :: frames)
  (rooted : search.low root = search.order root)
include sound top rooted

/-- From the root on, edges lead to no node before the root, unless it is settled. -/
theorem stays {node neighbour : N} (listed : node ∈ search.stack)
    (after : search.order root ≤ search.order node) (edge : neighbour ∈ row node) :
    neighbour ∈ search.stack ∧ search.order root ≤ search.order neighbour ∨
      neighbour ∈ search.settled := by
  refine (sound.scanned_after top listed after edge).imp_left fun ⟨onStack, below⟩ => ⟨onStack, ?_⟩
  have cover := sound.covers root (opens_eq top ▸ mem_cons_self) node listed
    (sound.nearest_top top after)
  rw [← rooted]
  exact Nat.le_trans cover below

/-- Whatever is reached from the root on is not before the root, unless it is settled. -/
theorem stays_reach {node other : N} (listed : node ∈ search.stack)
    (after : search.order root ≤ search.order node) (reach : Reach row node other) :
    other ∈ search.stack ∧ search.order root ≤ search.order other ∨ other ∈ search.settled := by
  induction reach with
  | refl => exact .inl ⟨listed, after⟩
  | tail _ edge ih =>
    rcases ih with ⟨onStack, later⟩ | settled
    · exact sound.stays top rooted onStack later edge
    · exact .inr (sound.settled.closed _ settled _ edge)

/-- Every node from the root on leads back to the root. -/
theorem leads_back {node : N} (listed : node ∈ search.stack)
    (after : search.order root ≤ search.order node) : Reach row node root := by
  induction number : search.order node using Nat.strongRecOn generalizing node with
  | ind bound ih =>
    by_cases same : node = root
    · rw [same]
      exact .refl
    · have shut : node ∉ search.opens := by
        rw [opens_eq top, mem_cons, not_or]
        exact ⟨same, fun below => absurd (sound.order_lt_top top below) (Nat.not_lt.mpr after)⟩
      -- A closed node reaches a node with a lower number, which the root still covers.
      obtain ⟨target, onStack, lowest, reach⟩ := sound.low_reach node listed
      have cover := sound.covers root (opens_eq top ▸ mem_cons_self) node listed
        (sound.nearest_top top after)
      rw [rooted, ← lowest] at cover
      have less : search.order target < bound := by
        rw [lowest, ← number]
        exact sound.low_lt node listed shut
      exact reach.trans (ih _ less onStack cover rfl)

/-- The nodes from the root on are those that the root reaches and that reach it. -/
theorem mutual_iff {node other : N} (listed : node ∈ search.stack)
    (after : search.order root ≤ search.order node) :
    (other ∈ search.stack ∧ search.order root ≤ search.order other) ↔
      Reach row node other ∧ Reach row other node := by
  have rootOpen : root ∈ search.opens := opens_eq top ▸ mem_cons_self
  constructor
  · rintro ⟨onStack, later⟩
    have there := sound.reaches root rootOpen other onStack later
    have here := sound.reaches root rootOpen node listed after
    exact ⟨(sound.leads_back top rooted listed after).trans there,
      (sound.leads_back top rooted onStack later).trans here⟩
  · rintro ⟨there, back⟩
    rcases sound.stays_reach top rooted listed after there with inside | settled
    · exact inside
    · exact absurd (sound.settled.reached settled back) (sound.apart node listed)

variable [DecidableEq N]

omit sound top rooted in
/-- A node on a stack splits it into what is above and what is below. -/
theorem split_stack {stack : List N} (listed : root ∈ stack) :
    stack = stack.takeWhile (· != root) ++ root :: (stack.dropWhile (· != root)).tail := by
  induction stack with
  | nil => cases listed
  | cons first rest ih =>
    by_cases same : first = root
    · simp [same]
    · have later : root ∈ rest := (mem_cons.mp listed).resolve_left fun equal => same equal.symm
      rw [List.takeWhile_cons_of_pos (by simpa using same),
        List.dropWhile_cons_of_pos (by simpa using same), List.cons_append, ← ih later]

omit rooted in
/-- What is popped is what was discovered from the root on, and what is left is from before. -/
theorem mem_pop {other : N} :
    (other ∈ search.stack.takeWhile (· != root) ++ [root] ↔
      other ∈ search.stack ∧ search.order root ≤ search.order other) ∧
    (other ∈ (search.stack.dropWhile (· != root)).tail ↔
      other ∈ search.stack ∧ search.order other < search.order root) := by
  -- Numbers fall down the stack, so the root parts it by number too.
  have split := split_stack (sound.top_listed top)
  have sorted := sound.sorted
  rw [split] at sorted
  obtain ⟨_, below, across⟩ := List.pairwise_append.mp sorted
  have less := (pairwise_cons.mp below).1
  generalize search.stack.takeWhile (· != root) = above at split across ⊢
  generalize (search.stack.dropWhile (· != root)).tail = rest at split less across ⊢
  have more : ∀ node ∈ above ++ [root], search.order root ≤ search.order node := by
    intro node inside
    rcases mem_append.mp inside with first | last
    · exact Nat.le_of_lt (across node first root mem_cons_self)
    · rw [List.mem_singleton.mp last]
  have listed : other ∈ search.stack ↔ other ∈ above ++ [root] ∨ other ∈ rest := by
    rw [split, List.append_cons, mem_append]
  rw [listed]
  constructor
  · constructor
    · exact fun inside => ⟨.inl inside, more other inside⟩
    · rintro ⟨inside | deeper, after⟩
      · exact inside
      · exact absurd (less other deeper) (Nat.not_lt.mpr after)
  · constructor
    · exact fun deeper => ⟨.inr deeper, less other deeper⟩
    · rintro ⟨inside | deeper, before⟩
      · exact absurd (more other inside) (Nat.not_le.mpr before)
      · exact deeper

omit rooted in
/-- The settled nodes after a component is taken. -/
theorem mem_settled_pop {other : N} :
    other ∈ (search.pop root).settled ↔
      other ∈ search.settled ∨ (other ∈ search.stack ∧ search.order root ≤ search.order other) := by
  show other ∈ (search.components ++ [_]).flatten ↔ _
  rw [List.flatten_append, List.flatten_singleton, mem_append, (sound.mem_pop top).1]
  rfl

/-- The component of a root is taken. -/
theorem pop : Sound row nodes { search.pop root with work := frames } := by
  have mem {other : N} := @mem_pop N row nodes search sound root frames top _ other
  have settles {other : N} :=
    @mem_settled_pop N row nodes search sound root frames top _ other
  have rootListed := sound.top_listed top
  have shorter : (search.pop root).stack.Sublist search.stack := by
    show ((search.stack.dropWhile (· != root)).tail).Sublist search.stack
    exact (List.tail_sublist _).trans (List.dropWhile_sublist _)
  have subset {other : N} (open_ : other ∈ frames.map Prod.fst) : other ∈ search.opens := by
    rw [opens_eq top]
    exact mem_cons_of_mem _ open_
  have frameIn {frame : N × List N} (inside : frame ∈ frames) : frame ∈ search.work := by
    rw [top]
    exact mem_cons_of_mem _ inside
  have before {other : N} (left : other ∈ (search.pop root).stack) :
      other ∈ search.stack ∧ search.order other < search.order root := mem.2.mp left
  have shut_before {other : N} (left : other ∈ (search.pop root).stack)
      (shut : other ∉ frames.map Prod.fst) : other ∉ search.opens := by
    rw [opens_eq top, mem_cons, not_or]
    refine ⟨fun same => ?_, shut⟩
    have less := (before left).2
    rw [same] at less
    exact Nat.lt_irrefl _ less
  have related {node neighbour : N} (scanned : search.Scanned node neighbour) :
      Search.Scanned { search.pop root with work := frames } node neighbour := by
    rcases scanned with ⟨onStack, below⟩ | settled
    · rcases Nat.lt_or_ge (search.order neighbour) (search.order root) with earlier | later
      · exact .inl ⟨mem.2.mpr ⟨onStack, earlier⟩, below⟩
      · exact .inr (settles.mpr (.inr ⟨onStack, later⟩))
    · exact .inr (settles.mpr (.inl settled))
  constructor
  case sorted => exact sound.sorted.sublist shorter
  case counted => exact fun node left => sound.counted node (shorter.subset left)
  case older =>
    intro node settled
    rcases settles.mp settled with old | ⟨listed, _⟩
    · exact sound.older node old
    · exact sound.counted node listed
  case count =>
    have whole := congrArg List.length (split_stack rootListed)
    rw [List.append_cons, List.length_append] at whole
    show search.counter = (search.stack.dropWhile (· != root)).tail.length +
      (search.components ++ [search.stack.takeWhile (· != root) ++ [root]]).flatten.length
    rw [List.flatten_append, List.flatten_singleton, List.length_append, sound.count, whole,
      Search.settled]
    omega
  case known => exact fun node left => sound.known node (shorter.subset left)
  case apart =>
    intro node left
    obtain ⟨listed, earlier⟩ := before left
    intro settled
    rcases settles.mp settled with old | ⟨_, later⟩
    · exact sound.apart node listed old
    · exact absurd earlier (Nat.not_lt.mpr later)
  case opened =>
    -- What is left of the stack is the part with lower numbers, and the open nodes are in it.
    have whole := sound.opened
    rw [opens_eq top] at whole
    have filtered := (List.sublist_of_cons_sublist whole).filter
      fun node => decide (search.order node < search.order root)
    have kept : (frames.map Prod.fst).filter
        (fun node => decide (search.order node < search.order root)) = frames.map Prod.fst := by
      rw [List.filter_eq_self]
      exact fun node open_ => decide_eq_true (sound.order_lt_top top open_)
    have rest : search.stack.filter (fun node => decide (search.order node < search.order root)) =
        (search.pop root).stack := by
      refine (congrArg (List.filter _) (split_stack rootListed)).trans ?_
      rw [List.append_cons, List.filter_append, List.filter_eq_nil_iff.mpr, List.nil_append,
        List.filter_eq_self.mpr]
      · rfl
      · exact fun node left => decide_eq_true (before left).2
      · exact fun node popped => by simpa using (mem.1.mp popped).2
    rw [kept, rest] at filtered
    exact filtered
  case reaches =>
    exact fun node open_ other left => sound.reaches node (subset open_) other (shorter.subset left)
  case low_le => exact fun node left => sound.low_le node (shorter.subset left)
  case low_reach =>
    intro node left
    obtain ⟨listed, earlier⟩ := before left
    obtain ⟨target, onStack, number, reach⟩ := sound.low_reach node listed
    refine ⟨target, mem.2.mpr ⟨onStack, ?_⟩, number, reach⟩
    rw [number]
    exact Nat.lt_of_le_of_lt (sound.low_le node listed) earlier
  case low_lt =>
    exact fun node left shut => sound.low_lt node (shorter.subset left) (shut_before left shut)
  case covers =>
    intro node open_ other left nearest
    obtain ⟨listed, earlier⟩ := before left
    refine sound.covers node (subset open_) other listed ⟨nearest.1, fun middle between less => ?_⟩
    rw [opens_eq top] at between
    rcases mem_cons.mp between with rfl | below
    · exact absurd earlier (Nat.not_lt.mpr less)
    · exact nearest.2 middle below less
  case pending => exact fun frame inside => sound.pending frame (frameIn inside)
  case scanned =>
    exact fun frame inside neighbour edge =>
      (sound.scanned frame (frameIn inside) neighbour edge).imp_right related
  case closed =>
    exact fun node left shut neighbour edge =>
      related (sound.closed node (shorter.subset left) (shut_before left shut) neighbour edge)
  case settled =>
    refine sound.settled.snoc _ ?_ ?_ ?_ ?_ ?_ ?_
    · exact List.append_ne_nil_of_right_ne_nil _ (List.cons_ne_nil _ _)
    · have nodup := sound.nodup_stack
      rw [split_stack rootListed, List.append_cons] at nodup
      exact (List.nodup_append.mp nodup).1
    · exact fun node inside => sound.known node (mem.1.mp inside).1
    · exact fun node inside => sound.apart node (mem.1.mp inside).1
    · intro node inside other
      obtain ⟨listed, after⟩ := mem.1.mp inside
      rw [mem.1]
      exact sound.mutual_iff top rooted listed after
    · intro node inside neighbour edge
      obtain ⟨listed, after⟩ := mem.1.mp inside
      rw [mem.1]
      exact sound.stays top rooted listed after edge

end

-- One step, and a run.

section

variable [DecidableEq N] {search : Search N} (sound : Sound row nodes search)
include sound

variable {frames : List (N × List N)} {node : N}

/-- Closing a node on top is sound. -/
theorem close (top : search.work = (node, []) :: frames) :
    Sound row nodes (search.close node frames) := by
  unfold Search.close
  dsimp only
  split
  case isTrue rooted =>
    have popped := sound.pop top rooted
    cases frames with
    | nil => exact popped
    | cons frame others =>
      obtain ⟨parent, rest⟩ := frame
      -- The parent was discovered before the root, so its lowlink is already lower.
      have parentLess := sound.order_lt_top top
        (show parent ∈ ((parent, rest) :: others).map Prod.fst from mem_cons_self)
      have parentListed : parent ∈ search.stack := by
        refine sound.mem_stack ?_
        rw [opens_eq top]
        exact mem_cons_of_mem _ mem_cons_self
      have low_le := sound.low_le parent parentListed
      have same : Search.propagate
          { search.pop node with work := (parent, rest) :: others } node =
          { search.pop node with work := (parent, rest) :: others } := by
        refine if_neg ?_
        show ¬ search.low node < search.low parent
        omega
      rw [same]
      exact popped
  case isFalse unrooted =>
    cases frames with
    | nil => exact sound.shut top unrooted fun _ _ _ never => nomatch never
    | cons frame others =>
      obtain ⟨parent, rest⟩ := frame
      have parentIn : parent ∈ ((parent, rest) :: others).map Prod.fst := mem_cons_self
      have parentOpen : parent ∈ search.opens := by
        rw [opens_eq top]
        exact mem_cons_of_mem _ parentIn
      have parentLess := sound.order_lt_top top parentIn
      have differs : node ≠ parent := fun same => by
        rw [same] at parentLess
        exact Nat.lt_irrefl _ parentLess
      -- The parent's lowlink is lowered while the node is still open, and the node closes then.
      obtain ⟨target, onStack, number, reach⟩ := sound.low_reach node (sound.top_listed top)
      have there := sound.reaches parent parentOpen node (sound.top_listed top)
        (Nat.le_of_lt parentLess)
      have lowered := sound.lower parentOpen ⟨target, onStack, number, there.trans reach⟩
      have values := search.low_lower parent (search.low node)
      have nodeLow := values.2 node differs
      have nodeOrder := search.order_lower parent (search.low node)
      have shut := lowered.shut ((search.work_lower parent _).trans top)
        (by rw [nodeLow, nodeOrder]; exact unrooted) (by
          rintro _ _ _ equal
          cases equal
          rw [nodeLow]
          exact values.1)
      have same : Search.propagate { search with work := (parent, rest) :: others } node =
          { search.lower parent (search.low node) with work := (parent, rest) :: others } := by
        unfold Search.propagate Search.lower
        dsimp only
        split <;> rfl
      rw [same]
      exact shut

/-- Relating the node on top to its next neighbour is sound. -/
theorem advance {node neighbour : N} {rest : List N}
    (top : search.work = (node, neighbour :: rest) :: frames)
    (within : ∀ neighbour ∈ row node, neighbour ∈ nodes) :
    Sound row nodes
      (Search.advance { search with work := (node, rest) :: frames } row node neighbour) := by
  have opens : search.opens = node :: frames.map Prod.fst := by
    rw [Search.opens, top, map_cons]
  have open_ : node ∈ search.opens := opens ▸ mem_cons_self
  have topIn : (node, neighbour :: rest) ∈ search.work := top ▸ mem_cons_self
  have edge : neighbour ∈ row node := sound.pending _ topIn _ mem_cons_self
  have frameIn {frame : N × List N} (inside : frame ∈ frames) : frame ∈ search.work := by
    rw [top]
    exact mem_cons_of_mem _ inside
  have same : ((node, rest) :: frames).map Prod.fst = search.opens := opens.symm
  have pending : ∀ frame ∈ (node, rest) :: frames, ∀ left ∈ frame.2, left ∈ row frame.1 := by
    intro frame inside
    rcases mem_cons.mp inside with rfl | below
    · exact fun left listed => sound.pending _ topIn left (mem_cons_of_mem _ listed)
    · exact sound.pending frame (frameIn below)
  -- All but the neighbour is left or related as before.
  have scanned : ∀ frame ∈ (node, rest) :: frames, ∀ other ∈ row frame.1,
      other ∈ frame.2 ∨ search.Scanned frame.1 other ∨ (frame.1 = node ∧ other = neighbour) := by
    intro frame inside other edge
    rcases mem_cons.mp inside with rfl | below
    · rcases sound.scanned _ topIn other edge with left | related
      · rcases mem_cons.mp left with rfl | later
        · exact .inr (.inr ⟨rfl, rfl⟩)
        · exact .inl later
      · exact .inr (.inl related)
    · exact (sound.scanned frame (frameIn below) other edge).imp_right .inl
  unfold Search.advance
  split
  case isTrue onStack =>
    have lowered := sound.lower open_ ⟨neighbour, onStack, rfl, .single edge⟩
    have values := search.low_lower node (search.order neighbour)
    have same : Search.lower { search with work := (node, rest) :: frames } node
        (search.order neighbour) =
        { search.lower node (search.order neighbour) with work := (node, rest) :: frames } := by
      unfold Search.lower
      dsimp only
      split <;> rfl
    rw [same]
    refine lowered.withWork (opens.symm.trans (search.opens_lower _ _).symm) pending ?_
    intro frame inside other edge
    rcases scanned frame inside other edge with left | related | ⟨isNode, rfl⟩
    · exact .inl left
    · exact .inr (search.scanned_lower _ _ related)
    · refine .inr (.inl ⟨(search.stack_lower _ _).symm ▸ onStack, ?_⟩)
      rw [isNode, search.order_lower]
      exact values.1
  case isFalse unlisted =>
    split
    case isTrue settled =>
      refine sound.withWork same pending fun frame inside other edge => ?_
      rcases scanned frame inside other edge with left | related | ⟨_, rfl⟩
      · exact .inl left
      · exact .inr related
      · exact .inr (.inr settled)
    case isFalse unsettled =>
      refine sound.discover (not_or.mpr ⟨unlisted, unsettled⟩) (within neighbour edge) ?_ same
        pending fun frame inside other edge =>
          (scanned frame inside other edge).imp_right (Or.imp_right And.right)
      -- The open nodes lead to the one on top, and that one to the neighbour.
      intro opened member
      refine Relation.ReflTransGen.tail ?_ edge
      have sorted := sound.sorted_opens
      rw [opens] at member sorted
      rcases mem_cons.mp member with rfl | below
      · exact .refl
      · refine sound.reaches opened (opens ▸ member) node (sound.mem_stack open_) ?_
        exact Nat.le_of_lt ((pairwise_cons.mp sorted).1 opened below)

/-- A step is sound. -/
theorem step (within : ∀ node ∈ nodes, ∀ neighbour ∈ row node, neighbour ∈ nodes) :
    Sound row nodes (search.step row) := by
  unfold Search.step
  split
  case h_1 => exact sound
  case h_2 node frames top => exact sound.close top
  case h_3 node neighbour rest frames top =>
    refine sound.advance top (within node (sound.known node (sound.mem_stack ?_)))
    rw [Search.opens, top]
    exact mem_cons_self

/-- Taking a component neither finds nor loses a node. -/
theorem found_pop {root : N} (top : search.work = (root, []) :: frames) (other : N) :
    (search.pop root).Found other ↔ search.Found other := by
  rw [Search.Found, sound.mem_settled_pop top]
  show other ∈ (search.stack.dropWhile (· != root)).tail ∨ _ ↔ _
  rw [(sound.mem_pop top).2, Search.Found]
  have order := Nat.lt_or_ge (search.order other) (search.order root)
  tauto

/-- Closing a node neither finds nor loses any. -/
theorem found_close (top : search.work = (node, []) :: frames) (other : N) :
    (search.close node frames).Found other ↔ search.Found other := by
  have propagated (popped : Search N) :
      (Search.propagate { popped with work := frames } node).Found other ↔ popped.Found other := by
    unfold Search.propagate
    split
    · exact Iff.rfl
    · exact Search.found_lower _ _ _ _
  refine (propagated _).trans ?_
  split
  case isTrue => exact sound.found_pop top other
  case isFalse => exact Iff.rfl

/-- What was found stays found. -/
theorem found_step {other : N} (found : search.Found other) : (search.step row).Found other := by
  unfold Search.step
  split
  case h_1 => exact found
  case h_2 node frames top => exact (sound.found_close top other).mpr found
  case h_3 node neighbour rest frames top =>
    unfold Search.advance
    split
    · exact (Search.found_lower _ _ _ _).mpr found
    · split
      · exact found
      · exact found.imp_left (mem_cons_of_mem _)

omit [DecidableEq N] sound in
/-- A sum drops at least as much as one of its terms when no term grows. -/
theorem sum_drop {before after : N → Nat} (less : ∀ node ∈ nodes, after node ≤ before node)
    (member : node ∈ nodes) {drop : Nat} (dropped : after node + drop ≤ before node) :
    (nodes.map after).sum + drop ≤ (nodes.map before).sum := by
  induction nodes with
  | nil => cases member
  | cons first rest ih =>
    rw [map_cons, map_cons, sum_cons, sum_cons]
    have head := less first mem_cons_self
    have tail : (rest.map after).sum ≤ (rest.map before).sum :=
      List.sum_le_sum fun other inside => less other (mem_cons_of_mem _ inside)
    rcases mem_cons.mp member with rfl | later
    · omega
    · have dropped := ih (fun other inside => less other (mem_cons_of_mem _ inside)) later
      omega

/-- While nodes are open, each step leaves fewer. -/
theorem left_step (within : ∀ node ∈ nodes, ∀ neighbour ∈ row node, neighbour ∈ nodes)
    (more : search.work ≠ []) : (search.step row).left row nodes < search.left row nodes := by
  -- No step loses a node, so the nodes to discover do not cost more.
  have cheaper : ∀ node ∈ nodes,
      (if (search.step row).Found node then 0 else (row node).length + 1) ≤
        if search.Found node then 0 else (row node).length + 1 := by
    intro node _
    split
    case isTrue => exact Nat.zero_le _
    case isFalse lost =>
      rw [if_neg fun found => lost (sound.found_step found)]
  have whole := List.sum_le_sum cheaper
  unfold Search.left
  match top : search.work with
  | [] => exact absurd top more
  | (node, []) :: frames =>
    have work : (search.step row).work = frames := by
      unfold Search.step
      rw [top]
      exact search.work_close node frames
    rw [work, map_cons, sum_cons]
    omega
  | (node, neighbour :: rest) :: frames =>
    rw [map_cons, sum_cons, List.length_cons]
    have stepped : search.step row =
        Search.advance { search with work := (node, rest) :: frames } row node neighbour := by
      unfold Search.step
      rw [top]
    have neighbourIn : neighbour ∈ nodes := by
      have open_ : node ∈ search.opens := by
        rw [Search.opens, top]
        exact mem_cons_self
      refine within node (sound.known node (sound.mem_stack open_)) neighbour ?_
      exact sound.pending _ (top ▸ mem_cons_self) _ mem_cons_self
    by_cases found : search.Found neighbour
    · have work : (search.step row).work = (node, rest) :: frames := by
        rw [stepped]
        unfold Search.advance
        split
        · exact Search.work_lower _ _ _
        · rename_i unlisted
          exact congrArg Search.work (if_pos (found.resolve_left unlisted))
      rw [work, map_cons, sum_cons]
      dsimp only
      omega
    · obtain ⟨unlisted, unsettled⟩ := not_or.mp found
      have discovered : search.step row =
          Search.discover { search with work := (node, rest) :: frames } row neighbour :=
        stepped.trans ((if_neg unlisted).trans (if_neg unsettled))
      have work : (search.step row).work =
          (neighbour, row neighbour) :: (node, rest) :: frames := by
        rw [discovered]
        rfl
      have now : (search.step row).Found neighbour := by
        rw [discovered]
        exact .inl mem_cons_self
      -- The neighbour's own steps were counted among those of the nodes to discover.
      have dropped : (if (search.step row).Found neighbour then 0 else (row neighbour).length + 1) +
          ((row neighbour).length + 1) ≤
            if search.Found neighbour then 0 else (row neighbour).length + 1 := by
        rw [if_pos now, if_neg found, Nat.zero_add]
      have drop := sum_drop cheaper neighbourIn dropped
      rw [work, map_cons, sum_cons, map_cons, sum_cons]
      dsimp only
      omega

omit [DecidableEq N] in
/-- Found nodes are nodes, and have numbers below the counter. -/
theorem of_found (found : search.Found node) :
    node ∈ nodes ∧ search.order node < search.counter := by
  rcases found with listed | settled
  · exact ⟨sound.known node listed, sound.counted node listed⟩
  · exact ⟨sound.settled.known node settled, sound.older node settled⟩

omit [DecidableEq N] in
theorem nodup_found : (search.stack ++ search.settled).Nodup := by
  refine List.nodup_append.mpr ⟨sound.nodup_stack, sound.settled.nodup, ?_⟩
  rintro node listed _ settled rfl
  exact sound.apart node listed settled

omit [DecidableEq N] in
/-- No more nodes are numbered than there are. -/
theorem counter_le : search.counter ≤ nodes.length := by
  have inside : search.stack ++ search.settled ⊆ nodes :=
    fun node found => (sound.of_found (mem_append.mp found)).1
  have whole := (sound.nodup_found.subperm inside).length_le
  rwa [List.length_append, ← sound.count] at whole

omit [DecidableEq N] in
/-- Fewer nodes are numbered than there are while one is not found. -/
theorem counter_lt (inside : node ∈ nodes) (fresh : ¬ search.Found node) :
    search.counter < nodes.length := by
  have nodup : (node :: (search.stack ++ search.settled)).Nodup :=
    List.nodup_cons.mpr ⟨fun listed => fresh (mem_append.mp listed), sound.nodup_found⟩
  have subset : node :: (search.stack ++ search.settled) ⊆ nodes :=
    List.cons_subset.mpr ⟨inside, fun other found => (sound.of_found (mem_append.mp found)).1⟩
  have whole := (nodup.subperm subset).length_le
  rwa [List.length_cons, List.length_append, ← sound.count] at whole

/-- A walk starts at a node that is not found. -/
theorem start (done : search.work = []) (fresh : ¬ search.Found node) (inside : node ∈ nodes) :
    Sound row nodes (search.discover row node) := by
  have opens : search.opens = [] := by
    rw [Search.opens, done]
    rfl
  have same : { search with work := [] } = search := by rw [← done]
  have discovered : Sound row nodes (Search.discover { search with work := [] } row node) := by
    refine sound.discover fresh inside ?_ opens.symm (fun _ never => nomatch never)
      fun _ never => nomatch never
    rw [opens]
    exact fun _ never => nomatch never
  rwa [same] at discovered

omit sound in
/-- A walk that starts has no more steps than there are nodes and edges. -/
theorem left_start (done : search.work = []) (inside : node ∈ nodes) :
    (search.discover row node).left row nodes ≤
      (nodes.map fun node => (row node).length + 1).sum := by
  have cheaper : ∀ other ∈ nodes,
      (if (search.discover row node).Found other then 0 else (row other).length + 1) ≤
        (row other).length + 1 := by
    intro other _
    split
    · exact Nat.zero_le _
    · exact Nat.le_refl _
  have found : (search.discover row node).Found node := .inl mem_cons_self
  have dropped : (if (search.discover row node).Found node then 0 else (row node).length + 1) +
      ((row node).length + 1) ≤ (row node).length + 1 := by rw [if_pos found, Nat.zero_add]
  have drop := sum_drop cheaper inside dropped
  have work : (search.discover row node).work = [(node, row node)] :=
    congrArg ((node, row node) :: ·) done
  rw [Search.left, work, List.map_singleton, List.sum_singleton]
  dsimp only
  omega

end

/-- Nothing is wrong before the search. -/
theorem empty : Sound row nodes (Search.empty : Search N) where
  sorted := List.Pairwise.nil
  counted := fun _ never => nomatch never
  older := fun _ never => nomatch never
  count := rfl
  known := fun _ never => nomatch never
  apart := fun _ never => nomatch never
  opened := List.Sublist.refl []
  reaches := fun _ never => nomatch never
  low_le := fun _ never => nomatch never
  low_reach := fun _ never => nomatch never
  low_lt := fun _ never => nomatch never
  covers := fun _ never => nomatch never
  pending := fun _ never => nomatch never
  scanned := fun _ never => nomatch never
  closed := fun _ never => nomatch never
  settled := .nil

end Sound

namespace Settled

variable {components : List (List N)} (settled : Settled row nodes components)
include settled

/-- Each component is a class of nodes that lead to each other. -/
theorem mutual_iff {component : List N} (inside : component ∈ components) {node : N}
    (member : node ∈ component) (other : N) :
    other ∈ component ↔ Reach row node other ∧ Reach row other node := by
  induction settled with
  | nil => cases inside
  | snoc before component some nodup known apart mutual_ closed ih =>
    rcases mem_append.mp inside with earlier | last
    · exact ih earlier
    · rw [List.mem_singleton.mp last] at member ⊢
      exact mutual_ node member other

/-- An edge leads into the same component or to an earlier one. -/
theorem earlier {source target : Nat} {component next : List N}
    (sourceAt : components[source]? = some component) (targetAt : components[target]? = some next)
    {node neighbour : N} (member : node ∈ component) (reached : neighbour ∈ next)
    (edge : neighbour ∈ row node) : target ≤ source := by
  induction settled with
  | nil => cases sourceAt
  | @snoc components before last some nodup known apart mutual_ closed ih =>
    rw [List.getElem?_append] at sourceAt targetAt
    split at targetAt
    case isTrue targetLess =>
      split at sourceAt
      case isTrue => exact ih sourceAt targetAt
      case isFalse more => omega
    case isFalse =>
      have same := List.mem_singleton.mp (List.mem_of_getElem? targetAt)
      subst same
      have targetLast := (List.getElem?_eq_some_iff.mp targetAt).1
      rw [List.length_singleton] at targetLast
      split at sourceAt
      case isTrue =>
        -- What an earlier component leads to is in the earlier ones.
        have settled : node ∈ components.flatten :=
          List.mem_flatten.mpr ⟨component, List.mem_of_getElem? sourceAt, member⟩
        exact absurd (before.closed node settled neighbour edge) (apart neighbour reached)
      case isFalse => omega

end Settled

end

end Tarjan

end Oxgraph
