import Oxgraph.Algo.Bfs

/-! Depth-bounded, multi-seed, level-synchronous search with a visitor sink. -/

namespace Oxgraph

/-- Wave and limit configuration. -/
structure BfsBounds where
  -- Maximum hop depth; elements there are emitted but not expanded.
  maxDepth : Option UInt32
  -- Cap on the number of emitted elements.
  resultLimit : Nat
  -- Whether seeds are emitted.
  includeSeeds : Bool
  deriving Repr

/-- Whether an element discovered at a depth is expanded. -/
def BfsBounds.expands (bounds : BfsBounds) (depth : UInt32) : Bool :=
  match bounds.maxDepth with
  | some most => depth < most
  | none => true

/-- Whether a sink lets the search go on. -/
inductive ControlFlow where
  | continue
  | break
  deriving DecidableEq, Repr

/-- A sink observes each discovered element with its depth, and changes its own state. -/
abbrev BfsVisitor (Id V : Type) := V → Id → UInt32 → ControlFlow × V

/-- What ends a bounded search early. -/
inductive BfsHalt where
  -- The search reports an error.
  | error (error : BfsError)
  -- A slice index is out of range.
  | panic
  -- The sink or the result cap stopped the search, which succeeds.
  | stopped
  deriving DecidableEq, Repr

/-- Mutable wave state of one bounded search. -/
structure BoundedRun (Id V : Type) where
  marks : List UInt32
  queue : List Id
  epoch : UInt32
  head : Nat
  tail : Nat
  waveEnd : Nat
  depth : UInt32
  emitted : Nat
  bounds : BfsBounds
  elementBound : Nat
  visitor : V

namespace BoundedRun

variable {Id V : Type}

/-- Reads a slot of a slice of the run, where an index out of range panics. -/
def slot {T : Type} (slots : BoundedRun Id V → List T) (index : Nat) :
    Mutation BfsHalt (BoundedRun Id V) T := do
  let run ← .read
  match (slots run)[index]? with
  | some slot => return slot
  | none => .fail .panic

/-- Pops the next element with its depth, which grows where a wave is exhausted. -/
def pop : Mutation BfsHalt (BoundedRun Id V) (Option (Id × UInt32)) := do
  let run ← .read
  if run.head = run.tail then return none
  else do
    if run.head = run.waveEnd then
      .modify fun run =>
        { run with depth := if run.depth = 4294967295 then run.depth else run.depth + 1
                   waveEnd := run.tail }
    let element ← slot queue run.head
    .modify fun run => { run with head := run.head + 1 }
    let run ← .read
    return some (element, run.depth)

/-- Emits one element, and applies the result cap. -/
def emit (visit : BfsVisitor Id V) (element : Id) (depth : UInt32) :
    Mutation BfsHalt (BoundedRun Id V) ControlFlow := do
  let run ← .read
  let (flow, visitor) := visit run.visitor element depth
  .modify fun run => { run with visitor }
  match flow with
  | .break => return .break
  | .continue =>
    .modify fun run => { run with emitted := run.emitted + 1 }
    let run ← .read
    return if run.emitted ≥ run.bounds.resultLimit then .break else .continue

/-- Marks and queues an element whose mark is of another epoch. -/
def enqueue (element : Id) (index : Nat) : Mutation BfsHalt (BoundedRun Id V) Unit := do
  .modify fun run => { run with marks := run.marks.set index run.epoch }
  let run ← .read
  let _ ← slot queue run.tail
  .modify fun run =>
    { run with queue := run.queue.set run.tail element, tail := run.tail + 1 }

/-- Marks, queues, and emits a target when first seen. -/
def discover (visit : BfsVisitor Id V) (target : Id) (index : Nat) (depth : UInt32) :
    Mutation BfsHalt (BoundedRun Id V) ControlFlow := do
  let run ← .read
  if index ≥ run.elementBound then
    .fail (.error (.neighborIndexOutOfBounds index run.elementBound))
  else do
    let mark ← slot marks index
    if mark = run.epoch then return .continue
    else do
      enqueue target index
      emit visit target depth

/-- Stops the search where control flow breaks. -/
def obey (flow : ControlFlow) : Mutation BfsHalt (BoundedRun Id V) Unit :=
  match flow with
  | .break => .fail .stopped
  | .continue => return

/-- Validates and queues one seed, and emits it when seeds are emitted. -/
def seed (graph : TopologyView Id) (visit : BfsVisitor Id V) (seed : Id) :
    Mutation BfsHalt (BoundedRun Id V) Unit := do
  let run ← .read
  if ¬ graph.containsElement seed then .fail (.error .startElementNotContained)
  else do
    let index := graph.elementIndex seed
    if index ≥ run.elementBound then
      .fail (.error (.startIndexOutOfBounds index run.elementBound))
    else do
      let mark ← slot marks index
      if mark = run.epoch then return
      else do
        enqueue seed index
        if run.bounds.includeSeeds then do
          let flow ← emit visit seed 0
          obey flow

/-- Discovers the targets of one popped element, when its depth is expanded. -/
def expand (graph : TopologyView Id) (visit : BfsVisitor Id V) (rows : Id → List Id)
    (element : Id) (depth : UInt32) : Mutation BfsHalt (BoundedRun Id V) Unit := do
  let run ← .read
  if run.bounds.expands depth then
    (rows element).forM fun target => do
      let flow ← discover visit target (graph.elementIndex target) (depth + 1)
      obey flow

/-- Pops and expands until the queue is exhausted; each pop moves the head, so fuel bounds them. -/
def drive (graph : TopologyView Id) (visit : BfsVisitor Id V) (rows : Id → List Id) :
    Nat → Mutation BfsHalt (BoundedRun Id V) Unit
  | 0 => return
  | fuel + 1 => do
    match ← pop with
    | none => return
    | some (element, depth) =>
      expand graph visit rows element depth
      drive graph visit rows fuel

end BoundedRun

section Entry

variable {Id V : Type}

/--
Runs a bounded search over given rows.

Scratch sizes are checked first, then the epoch advances, and each seed is validated as it is
queued.
-/
def boundedSearch (graph : TopologyView Id) (rows : Id → List Id) (seeds : List Id)
    (bounds : BfsBounds) (visit : BfsVisitor Id V) (scratch : BfsEpochScratch Id) (visitor : V) :
    Except BfsHalt Unit × BfsEpochScratch Id × V :=
  let elementBound := graph.elementBound
  if scratch.marks.length < elementBound then
    (.error (.error (.visitedTooSmall elementBound scratch.marks.length)), scratch, visitor)
  else if scratch.queue.length < elementBound then
    (.error (.error (.queueTooSmall elementBound scratch.queue.length)), scratch, visitor)
  else
    let (epoch, marks) := scratch.epoch.advance scratch.marks
    let start : BoundedRun Id V :=
      { marks, queue := scratch.queue, epoch := epoch.epoch, head := 0, tail := 0, waveEnd := 0
        depth := 0, emitted := 0, bounds, elementBound, visitor }
    let search : Mutation BfsHalt (BoundedRun Id V) Unit := do
      seeds.forM (BoundedRun.seed graph visit)
      .modify fun run => { run with waveEnd := run.tail }
      BoundedRun.drive graph visit rows (scratch.queue.length + 1)
    let (outcome, run) := search start
    let result := match outcome with
      | .error .stopped => .ok ()
      | other => other
    (result, { marks := run.marks, queue := run.queue, epoch }, run.visitor)

/-- Runs the forward bounded search. -/
def breadthFirstSearchBounded (graph : TopologyView Id) (seeds : List Id) (bounds : BfsBounds)
    (visit : BfsVisitor Id V) (scratch : BfsEpochScratch Id) (visitor : V) :
    Except BfsHalt Unit × BfsEpochScratch Id × V :=
  boundedSearch graph graph.elementSuccessors seeds bounds visit scratch visitor

/-- Runs the reverse bounded search. -/
def reverseBreadthFirstSearchBounded (graph : TopologyView Id) (seeds : List Id)
    (bounds : BfsBounds) (visit : BfsVisitor Id V) (scratch : BfsEpochScratch Id) (visitor : V) :
    Except BfsHalt Unit × BfsEpochScratch Id × V :=
  boundedSearch graph graph.elementPredecessors seeds bounds visit scratch visitor

/-- Runs the bidirectional bounded search: successors, then predecessors. -/
def breadthFirstSearchBoundedBoth (graph : TopologyView Id) (seeds : List Id) (bounds : BfsBounds)
    (visit : BfsVisitor Id V) (scratch : BfsEpochScratch Id) (visitor : V) :
    Except BfsHalt Unit × BfsEpochScratch Id × V :=
  boundedSearch graph
    (fun element => graph.elementSuccessors element ++ graph.elementPredecessors element) seeds
    bounds visit scratch visitor

end Entry

end Oxgraph
