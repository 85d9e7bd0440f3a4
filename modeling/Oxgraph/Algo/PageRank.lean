import Mathlib.Algebra.Field.Defs
import Mathlib.Algebra.Order.Group.Unbundled.Abs
import Mathlib.Order.Defs.LinearOrder
import Oxgraph.Lib.Mutation
import Oxgraph.Lib.Words

/-! PageRank by power iteration, over graphs and over the two families of directed hypergraphs. -/

namespace Oxgraph

/-- What a rank scalar has beyond its arithmetic and order. -/
structure PageRankScalar (S : Type) where
  -- Sentinel before the first iteration.
  infinity : S
  fromUsize : Nat → S
  isFinite : S → Bool

/-- Configuration of both policies. -/
structure PageRankConfig (S : Type) where
  damping : S
  tolerance : S
  maxIterations : Nat

/-- Report of a convergence. -/
structure PageRankReport (S : Type) where
  iterations : Nat
  delta : S

/-- Input, numeric, scratch and convergence errors. -/
inductive PageRankError (S : Type) where
  | emptyState
  | invalidDamping (damping : S)
  | invalidTolerance (tolerance : S)
  | invalidMaxIterations
  | outputTooShort (required actual : Nat)
  | scratchTooShort (name : String) (required actual : Nat)
  | personalizationTooShort (required actual : Nat)
  | invalidPersonalization (index : Nat) (value : S)
  | zeroPersonalization
  | elementIndexOutOfBounds (index bound : Nat)
  | duplicateElement (index : Nat)
  | duplicateRelation (index : Nat)
  | relationIndexOutOfBounds (index bound : Nat)
  | incidenceIndexOutOfBounds (index bound : Nat)
  | invalidRelationWeight (index : Nat) (value : S)
  | invalidIncidenceWeight (index : Nat) (value : S)
  | nonConverged (iterations : Nat) (delta : S)

/-- What stops a run. -/
inductive PageRankHalt (S : Type) where
  | error (error : PageRankError S)
  -- A slice index is out of range.
  | index

/-- The capabilities of a graph that the ranks bind on. -/
structure ForwardGraph (V E : Type) where
  elementBound : Nat
  elementIndex : V → Nat
  relationBound : Nat
  relationIndex : E → Nat
  outgoingEdges : V → List E
  target : E → V

/-- The capabilities of a directed hypergraph that the ranks bind on. -/
structure PageRankHypergraph (V R I : Type) where
  elementBound : Nat
  elementIndex : V → Nat
  relationBound : Nat
  relationIndex : R → Nat
  incidenceBound : Nat
  incidenceIndex : I → Nat
  outgoingHyperedges : V → List R
  targetIncidences : R → List I
  incidenceElement : I → V

/-- The buffers of a graph: three of scratch, and the output. -/
structure PageRankBuffers (S : Type) where
  teleport : List S
  next : List S
  visibleElements : List UInt8
  ranks : List S

/-- The buffers of a hypergraph: five of scratch, and the two outputs. -/
structure HypergraphPageRankBuffers (S : Type) where
  -- Elements first, then relations.
  teleport : List S
  nextElements : List S
  nextRelations : List S
  visibleElements : List UInt8
  visibleRelations : List UInt8
  elementRanks : List S
  relationRanks : List S

namespace PageRank

variable {S P T Id : Type}

-- Slices.

/-- Raises an error of the algorithm. -/
def raise (error : PageRankError S) : Mutation (PageRankHalt S) P T := .fail (.error error)

/-- Goes on with a result, or raises its error. -/
def checked (result : Except (PageRankError S) T) : Mutation (PageRankHalt S) P T :=
  .lift (result.mapError .error)

/-- Reads a slot of a slice, where an index out of range panics. -/
def slotAt (slots : List T) (index : Nat) : Mutation (PageRankHalt S) P T :=
  match slots[index]? with
  | some slot => return slot
  | none => .fail .index

/-- Writes a slot of a slice, where an index out of range panics. -/
def writeAt (index : Nat) (value : T) : Mutation (PageRankHalt S) (List T) Unit :=
  .attempt fun slots =>
    if index < slots.length then .ok (slots.set index value) else .error .index

/-- Sets the slots below a length to a value; a shorter slice panics. -/
def clear (value : T) (len : Nat) : Mutation (PageRankHalt S) (List T) Unit :=
  .attempt fun slots =>
    if slots.length < len then .error .index
    else .ok (List.replicate len value ++ slots.drop len)

/-- Marks a state as visible, unless it is marked already. -/
def markVisible (duplicate : Nat → PageRankError S) (index : Nat) :
    Mutation (PageRankHalt S) (List UInt8) Unit := do
  let mark ← slotAt (← .read) index
  if mark ≠ 0 then raise (duplicate index) else writeAt index 1

/-- Whether a state is marked as visible. -/
def isVisible (visible : List UInt8) (index : Nat) : Mutation (PageRankHalt S) P Bool := do
  return (← slotAt visible index) != 0

-- Checks.

/-- Checks an element index against its bound. -/
def checkIndex (index bound : Nat) : Except (PageRankError S) Nat :=
  if index < bound then .ok index else .error (.elementIndexOutOfBounds index bound)

/-- Checks a relation index against its bound. -/
def checkRelationIndex (index bound : Nat) : Except (PageRankError S) Nat :=
  if index < bound then .ok index else .error (.relationIndexOutOfBounds index bound)

/-- Checks the length of an output. -/
def ensureOutputLen (actual required : Nat) : Except (PageRankError S) Unit :=
  if actual < required then .error (.outputTooShort required actual) else .ok ()

/-- Checks the length of a scratch slice. -/
def ensureScratchLen (name : String) (actual required : Nat) : Except (PageRankError S) Unit :=
  if actual < required then .error (.scratchTooShort name required actual) else .ok ()

/-- The bound of all states, where a sum that overflows is too much for any output. -/
def checkedStateBound (elementBound relationBound elementLen relationLen : Nat) :
    Except (PageRankError S) Nat := do
  ensureOutputLen elementLen elementBound
  ensureOutputLen relationLen relationBound
  match checkedAdd elementBound relationBound with
  | some bound => .ok bound
  | none =>
    .error (.outputTooShort (usizeBound - 1) (min (elementLen + relationLen) (usizeBound - 1)))

variable [Field S] [LinearOrder S] (scalar : PageRankScalar S)

/-- Checks the damping, the tolerance and the number of iterations. -/
def validateConfig (config : PageRankConfig S) : Except (PageRankError S) Unit :=
  if scalar.isFinite config.damping = false ∨ config.damping < 0 ∨ config.damping > 1 then
    .error (.invalidDamping config.damping)
  else if scalar.isFinite config.tolerance = false ∨ config.tolerance < 0 then
    .error (.invalidTolerance config.tolerance)
  else if config.maxIterations = 0 then .error .invalidMaxIterations
  else .ok ()

/-- Checks a value that must be finite and not negative. -/
def checkValue (invalid : S → PageRankError S) (value : S) : Except (PageRankError S) S :=
  if scalar.isFinite value = false ∨ value < 0 then .error (invalid value) else .ok value

-- Distributions.

/-- Adds a share to a slot. -/
def addAt (index : Nat) (share : S) : Mutation (PageRankHalt S) (List S) Unit := do
  let before ← slotAt (← .read) index
  writeAt index (before + share)

/-- Adds amounts to the slots of the visible targets of some entries. -/
def addShares {E : Type} (entries : List E) (target : E → Except (PageRankError S) Nat)
    (visible : List UInt8) (amount : E → Except (PageRankError S) S) :
    Mutation (PageRankHalt S) (List S) Unit :=
  entries.forM fun entry => do
    let index ← checked (target entry)
    if (← isVisible visible index) = true then
      let share ← checked (amount entry)
      addAt index share
    else return

/-- Counts the entries whose targets are visible. -/
def visibleDegree {E : Type} (entries : List E) (target : E → Except (PageRankError S) Nat)
    (visible : List UInt8) : Mutation (PageRankHalt S) (List S) Nat :=
  entries.foldlM (fun degree entry => do
    let index ← checked (target entry)
    if (← isVisible visible index) = true then return degree + 1 else return degree) 0

/-- Adds up the weights of the entries whose targets are visible. -/
def weightTotal {E : Type} (entries : List E) (target : E → Except (PageRankError S) Nat)
    (weight : E → Except (PageRankError S) S) (visible : List UInt8) :
    Mutation (PageRankHalt S) (List S) S :=
  entries.foldlM (fun total entry => do
    let index ← checked (target entry)
    if (← isVisible visible index) = true then
      let weight ← checked (weight entry)
      return total + weight
    else return total) 0

/-- Distributes a rank evenly over visible targets, and returns what is left. -/
def distributeUniform {E : Type} (entries : List E) (target : E → Except (PageRankError S) Nat)
    (rank : S) (visible : List UInt8) : Mutation (PageRankHalt S) (List S) S := do
  let degree ← visibleDegree entries target visible
  if degree = 0 then return rank
  else
    let share := rank / scalar.fromUsize degree
    addShares entries target visible fun _ => .ok share
    return 0

/-- Distributes a rank over visible targets in proportion to weights, and returns what is left. -/
def distributeWeighted {E : Type} (entries : List E) (target : E → Except (PageRankError S) Nat)
    (weight : E → Except (PageRankError S) S) (rank : S) (visible : List UInt8) :
    Mutation (PageRankHalt S) (List S) S := do
  let total ← weightTotal entries target weight visible
  if total ≤ 0 then return rank
  else
    addShares entries target visible fun entry => do
      let weight ← weight entry
      return rank * (weight / total)
    return 0

-- The loops over one family of states.

variable (index : Id → Except (PageRankError S) Nat)

/-- Marks the states of a family, and writes their values at an offset; counts and adds up. -/
def fillStates (duplicate : Nat → PageRankError S)
    (offset : Nat)
    (valueAt : Nat → Mutation (PageRankHalt S) (List S × List UInt8) S) (states : List Id)
    (counted : Nat × S) : Mutation (PageRankHalt S) (List S × List UInt8) (Nat × S) :=
  states.foldlM (fun counted state => do
    let index ← checked (index state)
    .onPart Prod.snd (fun slots visible => (slots.1, visible)) (markVisible duplicate index)
    let value ← valueAt (offset + index)
    .onPart Prod.fst (fun slots out => (out, slots.2)) (writeAt (offset + index) value)
    return (counted.1 + 1, counted.2 + value)) counted

/-- The value that a state starts from: one, or that of the personalization. -/
def valueAt (personalization : Option (List S)) (state : Nat) : Mutation (PageRankHalt S) P S :=
  match personalization with
  | none => return 1
  | some input => do
    let value ← slotAt input state
    checked (checkValue scalar (.invalidPersonalization state) value)

/-- Checks that a personalization covers the states. -/
def ensurePersonalizationLen (personalization : Option (List S)) (required : Nat) :
    Except (PageRankError S) Unit :=
  match personalization with
  | none => .ok ()
  | some input =>
    if input.length < required then .error (.personalizationTooShort required input.length)
    else .ok ()

/-- Divides by the sum of the values. -/
def normalizePersonalization (count : Nat) (sum : S) : Mutation (PageRankHalt S) (List S) Unit :=
  if count = 0 then raise .emptyState
  else if sum ≤ 0 then raise .zeroPersonalization
  else .modify fun out => out.map (· / sum)

/-- Starts the ranks of a family at its values. -/
def initializeStates (offset : Nat)
    (teleport : List S) (states : List Id) : Mutation (PageRankHalt S) (List S) Unit :=
  states.forM fun state => do
    let index ← checked (index state)
    let value ← slotAt teleport (offset + index)
    writeAt index value

/-- Distributes the ranks of a family, and adds up what is left. -/
def distributeStates
    (distribute : Id → S → Mutation (PageRankHalt S) (List S) S) (ranks : List S)
    (states : List Id) (dangling : S) : Mutation (PageRankHalt S) (List S) S :=
  states.foldlM (fun dangling state => do
    let index ← checked (index state)
    let rank ← slotAt ranks index
    let left ← distribute state rank
    return dangling + left) dangling

/-- The rank that a state gets, and how far it moves. -/
def teleportUpdate (damping teleportScale accumulated teleport previous : S) : S × S :=
  let value := damping * accumulated + teleportScale * teleport
  (value, |value - previous|)

/-- Writes the new ranks of a family, and adds up how far they move. -/
def applyTeleport (offset : Nat)
    (damping teleportScale : S) (teleport next : List S) (states : List Id) (delta : S) :
    Mutation (PageRankHalt S) (List S) S :=
  states.foldlM (fun delta state => do
    let index ← checked (index state)
    let accumulated ← slotAt next index
    let value ← slotAt teleport (offset + index)
    let previous ← slotAt (← .read) index
    let update := teleportUpdate damping teleportScale accumulated value previous
    writeAt index update.1
    return delta + update.2) delta

/-- What is spread over all states again. -/
def teleportScale (damping dangling : S) : S := 1 - damping + damping * dangling

-- The power iteration.

/-- Runs rounds until one moves the ranks by no more than the tolerance. -/
def iterate (round : Mutation (PageRankHalt S) P S) (config : PageRankConfig S) :
    Nat → Nat → S → Mutation (PageRankHalt S) P (PageRankReport S)
  | _, 0, lastDelta => raise (.nonConverged config.maxIterations lastDelta)
  | iteration, left + 1, _ => do
    let delta ← round
    if delta ≤ config.tolerance then return { iterations := iteration, delta }
    else iterate round config (iteration + 1) left delta

/-- The rules that come with graphs. -/
inductive OutgoingDistribution (E S : Type) where
  | uniform
  | weighted (weights : E → S)

/-- The rules that come with hypergraphs. -/
inductive HypergraphOutgoingDistribution (R I S : Type) where
  | uniform
  | weighted (relationWeights : R → S) (incidenceWeights : I → S)

-- Graphs.

section Graph

variable {V E : Type} (graph : ForwardGraph V E)

/-- The index of an element, checked against the bound. -/
def checkedElementIndex (element : V) : Except (PageRankError S) Nat :=
  checkIndex (graph.elementIndex element) graph.elementBound

/-- The weight of an edge, which must have an index and must not be negative. -/
def checkedRelationWeight (weights : E → S) (edge : E) : Except (PageRankError S) S := do
  let index ← checkRelationIndex (graph.relationIndex edge) graph.relationBound
  checkValue scalar (.invalidRelationWeight index) (weights edge)

/-- Distributes the rank of an element to its outgoing visible neighbours. -/
def distributeOutgoing (distribution : OutgoingDistribution E S) (element : V) (rank : S)
    (visible : List UInt8) : Mutation (PageRankHalt S) (List S) S :=
  let target := fun edge => checkedElementIndex graph (graph.target edge)
  match distribution with
  | .uniform => distributeUniform scalar (graph.outgoingEdges element) target rank visible
  | .weighted weights =>
    distributeWeighted (graph.outgoingEdges element) target
      (checkedRelationWeight scalar graph weights) rank visible

/-- Marks the visible elements, and normalizes what they start from. -/
def buildPersonalizationInto (elements : List V) (personalization : Option (List S)) :
    Mutation (PageRankHalt S) (PageRankBuffers S) Unit := do
  .onPart PageRankBuffers.teleport (fun buffers teleport => { buffers with teleport })
    (clear 0 graph.elementBound)
  .onPart PageRankBuffers.visibleElements
    (fun buffers visibleElements => { buffers with visibleElements }) (clear 0 graph.elementBound)
  checked (ensurePersonalizationLen personalization graph.elementBound)
  let counted ← .onPart (fun buffers => (buffers.teleport, buffers.visibleElements))
    (fun buffers slots => { buffers with teleport := slots.1, visibleElements := slots.2 })
    (fillStates (checkedElementIndex graph) .duplicateElement 0 (valueAt scalar personalization)
      elements (0, 0))
  .onPart PageRankBuffers.teleport (fun buffers teleport => { buffers with teleport })
    (normalizePersonalization counted.1 counted.2)

/-- Starts the ranks of the visible elements. -/
def initializeRanks (elements : List V) :
    Mutation (PageRankHalt S) (PageRankBuffers S) Unit := do
  let buffers ← .read
  .onPart PageRankBuffers.ranks (fun buffers ranks => { buffers with ranks }) do
    clear 0 graph.elementBound
    initializeStates (checkedElementIndex graph) 0 buffers.teleport elements

/-- Checks what a run is given, and starts the ranks. -/
def startGraph (elements : List V) (config : PageRankConfig S)
    (personalization : Option (List S)) : Mutation (PageRankHalt S) (PageRankBuffers S) Unit := do
  checked (validateConfig scalar config)
  let bound := graph.elementBound
  let buffers ← .read
  checked (ensureOutputLen buffers.ranks.length bound)
  checked (ensureScratchLen "teleport" buffers.teleport.length bound)
  checked (ensureScratchLen "next" buffers.next.length bound)
  checked (ensureScratchLen "visible_elements" buffers.visibleElements.length bound)
  buildPersonalizationInto scalar graph elements personalization
  initializeRanks graph elements

/-- One power iteration; returns how far the ranks move. -/
def roundGraph (distribution : OutgoingDistribution E S) (elements : List V)
    (config : PageRankConfig S) : Mutation (PageRankHalt S) (PageRankBuffers S) S := do
  let before ← .read
  let dangling ← .onPart PageRankBuffers.next (fun buffers next => { buffers with next }) do
    clear 0 graph.elementBound
    distributeStates (checkedElementIndex graph)
      (fun element rank =>
        distributeOutgoing scalar graph distribution element rank before.visibleElements)
      before.ranks elements 0
  let after ← .read
  .onPart PageRankBuffers.ranks (fun buffers ranks => { buffers with ranks })
    (applyTeleport (checkedElementIndex graph) 0 config.damping
      (teleportScale config.damping dangling) after.teleport after.next elements 0)

/-- The power iteration of a graph. -/
def iterateGraph (distribution : OutgoingDistribution E S) (elements : List V)
    (config : PageRankConfig S) :
    Mutation (PageRankHalt S) (PageRankBuffers S) (PageRankReport S) :=
  iterate (roundGraph scalar graph distribution elements config) config 1 config.maxIterations
    scalar.infinity

/-- PageRank of a graph with scratch of the caller. -/
def pagerankGraphWithScratch (distribution : OutgoingDistribution E S) (elements : List V)
    (config : PageRankConfig S) (personalization : Option (List S)) :
    Mutation (PageRankHalt S) (PageRankBuffers S) (PageRankReport S) := do
  startGraph scalar graph elements config personalization
  iterateGraph scalar graph distribution elements config

end Graph

-- Hypergraphs.

section Hypergraph

variable {V R I : Type} (hypergraph : PageRankHypergraph V R I)

/-- The index of an element, checked against the bound. -/
def checkedHyperElementIndex (element : V) : Except (PageRankError S) Nat :=
  checkIndex (hypergraph.elementIndex element) hypergraph.elementBound

/-- The index of a relation, checked against the bound. -/
def checkedRelationIndexFor (relation : R) : Except (PageRankError S) Nat :=
  checkRelationIndex (hypergraph.relationIndex relation) hypergraph.relationBound

/-- The weight of a relation, which must have an index and must not be negative. -/
def checkedHyperRelationWeight (weights : R → S) (relation : R) :
    Except (PageRankError S) S := do
  let index ← checkRelationIndex (hypergraph.relationIndex relation) hypergraph.relationBound
  checkValue scalar (.invalidRelationWeight index) (weights relation)

/-- The weight of an incidence, which must have an index and must not be negative. -/
def checkedIncidenceWeight (weights : I → S) (incidence : I) : Except (PageRankError S) S :=
  let index := hypergraph.incidenceIndex incidence
  let bound := hypergraph.incidenceBound
  if index ≥ bound then .error (.incidenceIndexOutOfBounds index bound)
  else checkValue scalar (.invalidIncidenceWeight index) (weights incidence)

variable (distribution : HypergraphOutgoingDistribution R I S)

/-- Distributes the rank of an element to its outgoing visible relations. -/
def distributeFromElement (element : V)
    (rank : S) (visibleRelations : List UInt8) : Mutation (PageRankHalt S) (List S) S :=
  let relations := hypergraph.outgoingHyperedges element
  let target := checkedRelationIndexFor hypergraph
  match distribution with
  | .uniform => distributeUniform scalar relations target rank visibleRelations
  | .weighted relationWeights _ =>
    distributeWeighted relations target
      (checkedHyperRelationWeight scalar hypergraph relationWeights) rank visibleRelations

/-- Distributes the rank of a relation to its visible target elements. -/
def distributeFromRelation (relation : R)
    (rank : S) (visibleElements : List UInt8) : Mutation (PageRankHalt S) (List S) S :=
  let incidences := hypergraph.targetIncidences relation
  let target := fun incidence =>
    checkedHyperElementIndex hypergraph (hypergraph.incidenceElement incidence)
  match distribution with
  | .uniform => distributeUniform scalar incidences target rank visibleElements
  | .weighted _ incidenceWeights =>
    distributeWeighted incidences target
      (checkedIncidenceWeight scalar hypergraph incidenceWeights) rank visibleElements

/-- Marks the visible elements and relations, and normalizes what they start from. -/
def buildHyperPersonalizationInto (elements : List V) (relations : List R) (stateBound : Nat)
    (personalization : Option (List S)) :
    Mutation (PageRankHalt S) (HypergraphPageRankBuffers S) Unit := do
  .onPart HypergraphPageRankBuffers.teleport (fun buffers teleport => { buffers with teleport })
    (clear 0 stateBound)
  .onPart HypergraphPageRankBuffers.visibleElements
    (fun buffers visibleElements => { buffers with visibleElements })
    (clear 0 hypergraph.elementBound)
  .onPart HypergraphPageRankBuffers.visibleRelations
    (fun buffers visibleRelations => { buffers with visibleRelations })
    (clear 0 hypergraph.relationBound)
  checked (ensurePersonalizationLen personalization stateBound)
  let counted ← .onPart (fun buffers => (buffers.teleport, buffers.visibleElements))
    (fun buffers slots => { buffers with teleport := slots.1, visibleElements := slots.2 })
    (fillStates (checkedHyperElementIndex hypergraph) .duplicateElement 0
      (valueAt scalar personalization) elements (0, 0))
  let counted ← .onPart (fun buffers => (buffers.teleport, buffers.visibleRelations))
    (fun buffers slots => { buffers with teleport := slots.1, visibleRelations := slots.2 })
    (fillStates (checkedRelationIndexFor hypergraph) .duplicateRelation hypergraph.elementBound
      (valueAt scalar personalization) relations counted)
  .onPart HypergraphPageRankBuffers.teleport (fun buffers teleport => { buffers with teleport })
    (normalizePersonalization counted.1 counted.2)

/-- Starts the ranks of the visible elements and relations. -/
def initializeHyperRanks (elements : List V) (relations : List R) :
    Mutation (PageRankHalt S) (HypergraphPageRankBuffers S) Unit := do
  let buffers ← .read
  .onPart HypergraphPageRankBuffers.elementRanks
    (fun buffers elementRanks => { buffers with elementRanks }) (clear 0 hypergraph.elementBound)
  .onPart HypergraphPageRankBuffers.relationRanks
    (fun buffers relationRanks => { buffers with relationRanks })
    (clear 0 hypergraph.relationBound)
  .onPart HypergraphPageRankBuffers.elementRanks
    (fun buffers elementRanks => { buffers with elementRanks })
    (initializeStates (checkedHyperElementIndex hypergraph) 0 buffers.teleport elements)
  .onPart HypergraphPageRankBuffers.relationRanks
    (fun buffers relationRanks => { buffers with relationRanks })
    (initializeStates (checkedRelationIndexFor hypergraph) hypergraph.elementBound
      buffers.teleport relations)

/-- Checks what a run is given, and starts the ranks. -/
def startHypergraph (elements : List V) (relations : List R) (config : PageRankConfig S)
    (personalization : Option (List S)) :
    Mutation (PageRankHalt S) (HypergraphPageRankBuffers S) Unit := do
  checked (validateConfig scalar config)
  let elementBound := hypergraph.elementBound
  let relationBound := hypergraph.relationBound
  let buffers ← .read
  let stateBound ← checked (checkedStateBound elementBound relationBound
    buffers.elementRanks.length buffers.relationRanks.length)
  checked (ensureScratchLen "teleport" buffers.teleport.length stateBound)
  checked (ensureScratchLen "next_elements" buffers.nextElements.length elementBound)
  checked (ensureScratchLen "next_relations" buffers.nextRelations.length relationBound)
  checked (ensureScratchLen "visible_elements" buffers.visibleElements.length elementBound)
  checked (ensureScratchLen "visible_relations" buffers.visibleRelations.length relationBound)
  buildHyperPersonalizationInto scalar hypergraph elements relations stateBound personalization
  initializeHyperRanks hypergraph elements relations

/-- One power iteration; returns how far the ranks move. -/
def roundHypergraph (elements : List V)
    (relations : List R) (config : PageRankConfig S) :
    Mutation (PageRankHalt S) (HypergraphPageRankBuffers S) S := do
  let before ← .read
  .onPart HypergraphPageRankBuffers.nextElements
    (fun buffers nextElements => { buffers with nextElements }) (clear 0 hypergraph.elementBound)
  .onPart HypergraphPageRankBuffers.nextRelations
    (fun buffers nextRelations => { buffers with nextRelations })
    (clear 0 hypergraph.relationBound)
  let dangling ← .onPart HypergraphPageRankBuffers.nextRelations
    (fun buffers nextRelations => { buffers with nextRelations })
    (distributeStates (checkedHyperElementIndex hypergraph)
      (fun element rank => distributeFromElement scalar hypergraph distribution element rank
        before.visibleRelations) before.elementRanks elements 0)
  let dangling ← .onPart HypergraphPageRankBuffers.nextElements
    (fun buffers nextElements => { buffers with nextElements })
    (distributeStates (checkedRelationIndexFor hypergraph)
      (fun relation rank => distributeFromRelation scalar hypergraph distribution relation rank
        before.visibleElements) before.relationRanks relations dangling)
  let after ← .read
  let scale := teleportScale config.damping dangling
  let delta ← .onPart HypergraphPageRankBuffers.elementRanks
    (fun buffers elementRanks => { buffers with elementRanks })
    (applyTeleport (checkedHyperElementIndex hypergraph) 0 config.damping scale after.teleport
      after.nextElements elements 0)
  .onPart HypergraphPageRankBuffers.relationRanks
    (fun buffers relationRanks => { buffers with relationRanks })
    (applyTeleport (checkedRelationIndexFor hypergraph) hypergraph.elementBound config.damping
      scale after.teleport after.nextRelations relations delta)

/-- The power iteration of a hypergraph. -/
def iterateHypergraph (elements : List V)
    (relations : List R) (config : PageRankConfig S) :
    Mutation (PageRankHalt S) (HypergraphPageRankBuffers S) (PageRankReport S) :=
  iterate (roundHypergraph scalar hypergraph distribution elements relations config) config 1
    config.maxIterations scalar.infinity

/-- PageRank of a hypergraph with scratch of the caller. -/
def pagerankHypergraphWithScratch
    (elements : List V) (relations : List R) (config : PageRankConfig S)
    (personalization : Option (List S)) :
    Mutation (PageRankHalt S) (HypergraphPageRankBuffers S) (PageRankReport S) := do
  startHypergraph scalar hypergraph elements relations config personalization
  iterateHypergraph scalar hypergraph distribution elements relations config

end Hypergraph

end PageRank

end Oxgraph
