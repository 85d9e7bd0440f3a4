import Oxgraph.Algo.Topology
import Oxgraph.Lib.TreeMap

/-! Breadth-first search as an iterator over five kinds of visited storage. -/

namespace Oxgraph

/-- Storage policy of a search: it owns the visited set and the frontier. -/
class BfsStep (Id : outParam Type) (S : Type) where
  -- Removes and returns the next frontier element.
  pop : Mutation BfsPanic S (Option Id)
  -- Marks an unvisited element as visited and pushes it onto the frontier.
  tryVisitAndPush (graph : TopologyView Id) (target : Id) : Mutation BfsPanic S Unit

namespace Bfs

variable {Id S : Type}

/-- One step of the iterator: yields an element and visits what it expands to. -/
def next [BfsStep Id S] (graph : TopologyView Id) (direction : ExpansionDirection) :
    Mutation BfsPanic S (Option Id) := do
  match ← BfsStep.pop with
  | none => return none
  | some element =>
    (direction.expand graph element).forM (BfsStep.tryVisitAndPush graph)
    return some element

/-- The results of so many calls of the iterator. -/
def calls [BfsStep Id S] (graph : TopologyView Id) (direction : ExpansionDirection) :
    Nat → Mutation BfsPanic S (List (Option Id))
  | 0 => return []
  | count + 1 => do
    let results ← calls graph direction count
    let result ← next graph direction
    return results ++ [result]

end Bfs

/-- Reads a slot of a slice, where an index out of range panics. -/
def slotOrPanic {T S : Type} (slots : List T) (index : Nat) : Mutation BfsPanic S T :=
  match slots[index]? with
  | some slot => return slot
  | none => .fail .index

-- Validation of the start and of the scratch.

/-- Witness that a start is contained and maps inside the bound. -/
structure ValidatedStart where
  startIndex : Nat
  bound : Nat

/-- Validates that a start is contained and maps inside the element bound. -/
def ValidatedStart.new {Id : Type} (graph : TopologyView Id) (start : Id) :
    Except BfsError ValidatedStart :=
  let bound := graph.elementBound
  if ¬ graph.containsElement start then .error .startElementNotContained
  else
    let startIndex := graph.elementIndex start
    if startIndex ≥ bound then .error (.startIndexOutOfBounds startIndex bound)
    else .ok { startIndex, bound }

/-- Validates that scratch fits the element bound, and then the start. -/
def ValidatedScratch.new {Id : Type} (graph : TopologyView Id) (start : Id)
    (visitedLen queueLen : Nat) : Except BfsError ValidatedStart :=
  let bound := graph.elementBound
  if visitedLen < bound then .error (.visitedTooSmall bound visitedLen)
  else if queueLen < bound then .error (.queueTooSmall bound queueLen)
  else ValidatedStart.new graph start

-- The epoch counter.

/-- Monotonic traversal-epoch counter with an automatic overflow reset. -/
structure EpochCounter where
  epoch : UInt32
  deriving Repr

namespace EpochCounter

/-- A counter at epoch zero, which is reserved for "never visited". -/
def new : EpochCounter := ⟨0⟩

/-- Advances to the next epoch; an overflow clears the marks and starts again at one. -/
def advance (counter : EpochCounter) (marks : List UInt32) : EpochCounter × List UInt32 :=
  if counter.epoch = 4294967295 then (⟨1⟩, List.replicate marks.length 0)
  else (⟨counter.epoch + 1⟩, marks)

end EpochCounter

-- The frontiers.

/-- Caller-slice byte-flag storage and queue. -/
structure SeededByteFlagFrontier (Id : Type) where
  visited : List UInt8
  queue : List Id
  head : Nat
  tail : Nat

/-- Caller-slice epoch-marked storage and queue. -/
structure SeededEpochFrontier (Id : Type) where
  marks : List UInt32
  queue : List Id
  epoch : UInt32
  head : Nat
  tail : Nat

/-- Workspace-borrowed epoch-marked storage and queue vector. -/
structure SeededWorkspaceFrontier (Id : Type) where
  marks : List UInt32
  queue : List Id
  epoch : UInt32
  head : Nat

/-- Owned byte-flag storage and queue vector. -/
structure SeededOwnedFrontier (Id : Type) where
  visited : List UInt8
  queue : List Id
  head : Nat

namespace SeededByteFlagFrontier

variable {Id : Type}

/-- Clears the flags up to the bound, marks the start, and seats it in the queue. -/
def new (visited : List UInt8) (queue : List Id) (start : Id) (witness : ValidatedStart) :
    SeededByteFlagFrontier Id :=
  { visited := (List.replicate witness.bound 0 ++ visited.drop witness.bound).set
      witness.startIndex 1
    queue := queue.set 0 start
    head := 0
    tail := 1 }

instance : BfsStep Id (SeededByteFlagFrontier Id) where
  pop := do
    let frontier ← .read
    if frontier.head = frontier.tail then return none
    else do
      let element ← slotOrPanic frontier.queue frontier.head
      .modify fun frontier => { frontier with head := frontier.head + 1 }
      return some element
  tryVisitAndPush graph target := do
    let frontier ← .read
    let targetIndex := graph.elementIndex target
    match frontier.visited[targetIndex]? with
    | none =>
      .fail (.neighborOob (.neighborIndexOutOfBounds targetIndex frontier.visited.length))
    | some slot =>
      if slot = 0 then do
        .modify fun frontier => { frontier with visited := frontier.visited.set targetIndex 1 }
        let _ ← slotOrPanic frontier.queue frontier.tail
        .modify fun frontier =>
          { frontier with queue := frontier.queue.set frontier.tail target
                          tail := frontier.tail + 1 }
      else return

end SeededByteFlagFrontier

namespace SeededEpochFrontier

variable {Id : Type}

/-- Marks the start with the epoch and seats it in the queue. -/
def new (marks : List UInt32) (queue : List Id) (epoch : UInt32) (start : Id)
    (witness : ValidatedStart) : SeededEpochFrontier Id :=
  { marks := marks.set witness.startIndex epoch
    queue := queue.set 0 start
    epoch
    head := 0
    tail := 1 }

instance : BfsStep Id (SeededEpochFrontier Id) where
  pop := do
    let frontier ← .read
    if frontier.head = frontier.tail then return none
    else do
      let element ← slotOrPanic frontier.queue frontier.head
      .modify fun frontier => { frontier with head := frontier.head + 1 }
      return some element
  tryVisitAndPush graph target := do
    let frontier ← .read
    let targetIndex := graph.elementIndex target
    match frontier.marks[targetIndex]? with
    | none =>
      .fail (.neighborOob (.neighborIndexOutOfBounds targetIndex frontier.marks.length))
    | some mark =>
      if mark ≠ frontier.epoch then do
        .modify fun frontier =>
          { frontier with marks := frontier.marks.set targetIndex frontier.epoch }
        let _ ← slotOrPanic frontier.queue frontier.tail
        .modify fun frontier =>
          { frontier with queue := frontier.queue.set frontier.tail target
                          tail := frontier.tail + 1 }
      else return

end SeededEpochFrontier

namespace SeededWorkspaceFrontier

variable {Id : Type}

/-- Clears the queue, marks the start with the epoch, and pushes it. -/
def new (marks : List UInt32) (epoch : UInt32) (start : Id) (witness : ValidatedStart) :
    SeededWorkspaceFrontier Id :=
  { marks := marks.set witness.startIndex epoch
    queue := [start]
    epoch
    head := 0 }

instance : BfsStep Id (SeededWorkspaceFrontier Id) where
  pop := do
    let frontier ← .read
    match frontier.queue[frontier.head]? with
    | none => return none
    | some element =>
      .modify fun frontier => { frontier with head := frontier.head + 1 }
      return some element
  tryVisitAndPush graph target := do
    let frontier ← .read
    let targetIndex := graph.elementIndex target
    match frontier.marks[targetIndex]? with
    | none =>
      .fail (.neighborOob (.neighborIndexOutOfBounds targetIndex frontier.marks.length))
    | some mark =>
      if mark ≠ frontier.epoch then
        .modify fun frontier =>
          { frontier with marks := frontier.marks.set targetIndex frontier.epoch
                          queue := frontier.queue ++ [target] }
      else return

end SeededWorkspaceFrontier

namespace SeededOwnedFrontier

variable {Id : Type}

/-- Allocates flags up to the bound, marks the start, and pushes it. -/
def new (start : Id) (witness : ValidatedStart) : SeededOwnedFrontier Id :=
  { visited := (List.replicate witness.bound 0).set witness.startIndex 1
    queue := [start]
    head := 0 }

instance : BfsStep Id (SeededOwnedFrontier Id) where
  pop := do
    let frontier ← .read
    match frontier.queue[frontier.head]? with
    | none => return none
    | some element =>
      .modify fun frontier => { frontier with head := frontier.head + 1 }
      return some element
  tryVisitAndPush graph target := do
    let frontier ← .read
    let targetIndex := graph.elementIndex target
    match frontier.visited[targetIndex]? with
    | none =>
      .fail (.neighborOob (.neighborIndexOutOfBounds targetIndex frontier.visited.length))
    | some slot =>
      if slot = 0 then
        .modify fun frontier =>
          { frontier with visited := frontier.visited.set targetIndex 1
                          queue := frontier.queue ++ [target] }
      else return

end SeededOwnedFrontier

/-- Visited-set policy of the set-based searches. -/
class VisitedSet (V : Type) (Id : outParam Type) where
  default : V
  -- Inserts an element; whether it was newly added.
  insert : V → Id → Bool × V

instance {Id : Type} [Ord Id] [Std.TransOrd Id] : VisitedSet (BTreeSet Id) Id where
  default := ∅
  insert visited element := (¬ visited.contains element, visited.insert element)

instance {Id : Type} [BEq Id] [Hashable Id] [EquivBEq Id] [LawfulHashable Id] :
    VisitedSet (Std.ExtHashSet Id) Id where
  default := ∅
  insert visited element := (¬ visited.contains element, visited.insert element)

/-- Owned queue paired with a generic visited set. -/
structure GenericState (Id V : Type) where
  queue : List Id
  visited : V

namespace GenericState

variable {Id V : Type} [VisitedSet V Id]

/-- Seeds the queue and the visited set with the start. -/
def new (start : Id) : GenericState Id V :=
  { queue := [start], visited := (VisitedSet.insert (VisitedSet.default : V) start).2 }

instance : BfsStep Id (GenericState Id V) where
  pop := do
    let state ← .read
    match state.queue with
    | [] => return none
    | element :: rest =>
      .modify fun state => { state with queue := rest }
      return some element
  tryVisitAndPush _ target := do
    let state ← .read
    let (added, visited) := VisitedSet.insert state.visited target
    .modify fun state =>
      { state with visited, queue := if added then state.queue ++ [target] else state.queue }

end GenericState

-- Reusable scratch and its searches.

/-- Reusable caller-provided scratch for epoch-marked searches. -/
structure BfsEpochScratch (Id : Type) where
  marks : List UInt32
  queue : List Id
  epoch : EpochCounter

/-- Owned reusable workspace for epoch-marked searches. -/
structure BfsWorkspace (Id : Type) where
  marks : List UInt32
  queue : List Id
  epoch : EpochCounter

/-- Creates scratch over caller-provided slices; marks are cleared, queue contents ignored. -/
def BfsEpochScratch.new {Id : Type} (marks : List UInt32) (queue : List Id) : BfsEpochScratch Id :=
  { marks := List.replicate marks.length 0, queue, epoch := .new }

namespace BfsWorkspace

variable {Id : Type}

/-- Creates an empty workspace. -/
def new : BfsWorkspace Id := { marks := [], queue := [], epoch := .new }

/-- Creates a workspace for so many elements. -/
def withElementBound (elementBound : Nat) : BfsWorkspace Id :=
  { marks := List.replicate elementBound 0, queue := [], epoch := .new }

/-- Ensures the marks cover the bound. -/
def ensureElementBound (workspace : BfsWorkspace Id) (elementBound : Nat) : BfsWorkspace Id :=
  if workspace.marks.length < elementBound then
    { workspace with
      marks := workspace.marks ++ List.replicate (elementBound - workspace.marks.length) 0 }
  else workspace

end BfsWorkspace

-- The entry points; the direction is chosen where the iterator is run.

section EntryPoints

variable {Id : Type}

/-- Creates a search over caller-provided byte flags and queue. -/
def breadthFirstSearchWithScratch (graph : TopologyView Id) (start : Id) (visited : List UInt8)
    (queue : List Id) : Except BfsError (SeededByteFlagFrontier Id) :=
  (ValidatedScratch.new graph start visited.length queue.length).map
    (SeededByteFlagFrontier.new visited queue start)

/-- Creates a search over reusable epoch scratch, which is left with the advanced epoch. -/
def breadthFirstSearchWithEpochScratch (graph : TopologyView Id) (start : Id) :
    Mutation BfsError (BfsEpochScratch Id) (SeededEpochFrontier Id) := do
  let scratch ← .read
  let witness ← .lift (ValidatedScratch.new graph start scratch.marks.length scratch.queue.length)
  let (epoch, marks) := scratch.epoch.advance scratch.marks
  .modify fun scratch => { scratch with epoch, marks }
  return .new marks scratch.queue epoch.epoch start witness

/-- Creates a search over a reusable workspace, which grows to the bound and advances its epoch. -/
def breadthFirstSearchWithWorkspace (graph : TopologyView Id) (start : Id) :
    Mutation BfsError (BfsWorkspace Id) (SeededWorkspaceFrontier Id) := do
  let witness ← .lift (ValidatedStart.new graph start)
  .modify fun workspace => workspace.ensureElementBound witness.bound
  let workspace ← .read
  let (epoch, marks) := workspace.epoch.advance workspace.marks
  .modify fun workspace => { workspace with epoch, marks }
  return .new marks epoch.epoch start witness

/-- Creates a search over freshly allocated dense storage. -/
def breadthFirstSearch (graph : TopologyView Id) (start : Id) :
    Except BfsError (SeededOwnedFrontier Id) :=
  (ValidatedStart.new graph start).map (SeededOwnedFrontier.new start)

/-- Creates a search for arbitrary ids over a tree set. -/
def breadthFirstSearchGeneric [Ord Id] [Std.TransOrd Id] (start : Id) :
    GenericState Id (BTreeSet Id) :=
  .new start

/-- Creates a search for arbitrary ids over a hash set. -/
def breadthFirstSearchGenericHash [BEq Id] [Hashable Id] [EquivBEq Id] [LawfulHashable Id]
    (start : Id) : GenericState Id (Std.ExtHashSet Id) :=
  .new start

end EntryPoints

-- What a search gives back to the scratch it borrowed, once it is dropped.

/-- Scratch after a search over it has been dropped. -/
def BfsEpochScratch.reclaim {Id : Type} (scratch : BfsEpochScratch Id)
    (frontier : SeededEpochFrontier Id) : BfsEpochScratch Id :=
  { scratch with marks := frontier.marks, queue := frontier.queue }

/-- A workspace after a search over it has been dropped. -/
def BfsWorkspace.reclaim {Id : Type} (workspace : BfsWorkspace Id)
    (frontier : SeededWorkspaceFrontier Id) : BfsWorkspace Id :=
  { workspace with marks := frontier.marks, queue := frontier.queue }

end Oxgraph
