import Oxgraph.Proofs.Algo.PageRank.Iteration

/-! Runs over graphs step a walk with restart whose flows are the rows of the elements. -/

namespace Oxgraph

namespace PageRank

section Graph

variable {S V E : Type} [Field S] [LinearOrder S] (graph : ForwardGraph V E)
  (distribution : OutgoingDistribution E S) (elements : List V)
  (personalization : Option (List S))

/-- The weight of an edge under a rule. -/
def OutgoingDistribution.gain : OutgoingDistribution E S → E → S
  | .uniform, _ => 1
  | .weighted weights, edge => weights edge

/-- The share of its rank that an element sends to an index. -/
def graphShare (source : V) : Nat → S :=
  rowShare (· ∈ elements.map graph.elementIndex)
    (fun edge => graph.elementIndex (graph.target edge)) distribution.gain
    (graph.outgoingEdges source)

/-- The share of its rank that an element does not send. -/
def graphLeak (source : V) : S :=
  rowLeak (· ∈ elements.map graph.elementIndex)
    (fun edge => graph.elementIndex (graph.target edge)) distribution.gain
    (graph.outgoingEdges source)

/-- The walk of a graph: shares of elements, and restarts from what elements start with. -/
def graphWalk : RestartWalk V S where
  flow source state := graphShare graph distribution elements source (graph.elementIndex state)
  leak := graphLeak graph distribution elements
  restart state :=
    restartShare personalization (elements.map graph.elementIndex) (graph.elementIndex state)

/-- What buffers hold between rounds that have reached a mass. -/
structure GraphTracks (buffers : PageRankBuffers S) (mass : V → S) : Prop where
  visible : Marks graph.elementBound buffers.visibleElements (· ∈ elements.map graph.elementIndex)
  teleport : Fills graph.elementBound buffers.teleport
    (lay elements graph.elementIndex
      (graphWalk graph distribution elements personalization).restart)
  next : graph.elementBound ≤ buffers.next.length
  ranks : Fills graph.elementBound buffers.ranks (lay elements graph.elementIndex mass)

variable [DecidableEq V] [IsStrictOrderedRing S] {graph distribution elements personalization}
  (lists : GraphLists graph elements) (weighs : GraphWeighs graph elements distribution)
  (accepted : Personalizes personalization graph.elementBound (elements.map graph.elementIndex))

include lists weighs accepted in
/-- The walk of a graph is stochastic. -/
theorem graphWalk_stochastic :
    (graphWalk graph distribution elements personalization).Stochastic elements.toFinset := by
  -- Rows send shares to the visible elements only, and leak the rest.
  have listed (value : V → S) := sum_listed lists.nodup (List.Perm.refl elements) value
  constructor
  case flow =>
    intro source from_ state _
    refine rowShare_nonneg (fun edge member => ?_) _
    cases distribution with
    | uniform => exact zero_le_one
    | weighted weights => exact (weighs source (List.mem_toFinset.mp from_) edge member).2
  case leak => exact fun source _ => rowLeak_nonneg
  case whole =>
    intro source _
    rw [← listed]
    exact sum_rowShare lists.nodup fun _ => Iff.rfl
  case restart =>
    intro state inside
    exact restartShare_nonneg accepted (List.mem_map_of_mem (List.mem_toFinset.mp inside))
  case total =>
    have whole := sum_restartShare (ne_of_gt accepted.positive)
    rw [List.map_map] at whole
    rw [← listed]
    exact whole

variable {scalar : PageRankScalar S} (exact_ : Exact scalar)

omit [Field S] [LinearOrder S] [IsStrictOrderedRing S] [DecidableEq V] in
include lists in
/-- The checks of listed elements pass. -/
theorem GraphLists.indexes : ∀ element ∈ elements,
    (checkedElementIndex graph element : Except (PageRankError S) Nat) =
      .ok (graph.elementIndex element) :=
  fun element inside => if_pos (lists.inBound element inside)

variable {listing : List V}

omit [DecidableEq V] in
include lists in
/-- What is asked of listed elements does not depend on how they are listed. -/
theorem GraphLists.perm (same : listing.Perm elements) :
    GraphLists graph listing where
  nodup := (same.map _).nodup_iff.mpr lists.nodup
  inBound element inside := lists.inBound element (same.mem_iff.mp inside)
  targets element inside := lists.targets element (same.mem_iff.mp inside)

include lists weighs exact_ in
omit [DecidableEq V] in
/-- Both rules distribute the rank of an element by its row. -/
theorem distributeOutgoing_run {visible : List UInt8}
    (marks : Marks graph.elementBound visible (· ∈ elements.map graph.elementIndex)) {element : V}
    (inside : element ∈ elements) :
    Distributes graph.elementBound
      (fun rank => distributeOutgoing scalar graph distribution element rank visible)
      (graphShare graph distribution elements element)
      (graphLeak graph distribution elements element) := by
  have inBound := lists.targets element inside
  have targets : ∀ edge ∈ graph.outgoingEdges element,
      (checkedElementIndex graph (graph.target edge) : Except (PageRankError S) Nat) =
        .ok (graph.elementIndex (graph.target edge)) :=
    fun edge member => if_pos (inBound edge member)
  cases distribution with
  | uniform => exact distributeUniform_run marks targets inBound exact_
  | weighted weights =>
    refine distributeWeighted_run marks targets inBound fun edge member => ?_
    obtain ⟨indexed, nonneg⟩ := weighs element inside edge member
    rw [checkedRelationWeight, checkRelationIndex, if_pos indexed]
    exact checkValue_run exact_ nonneg

include lists in
omit [IsStrictOrderedRing S] in
/-- A step of the walk, from the sums that a round computes over any listing. -/
theorem graphWalk_step {listing : List V} (same : listing.Perm elements) (damping : S)
    (mass : V → S) {state : V} (inside : state ∈ elements) :
    damping * (0 + (listing.map fun source =>
        lay elements graph.elementIndex mass (graph.elementIndex source) *
          graphShare graph distribution elements source (graph.elementIndex state)).sum) +
      teleportScale damping (0 + (listing.map fun source =>
        lay elements graph.elementIndex mass (graph.elementIndex source) *
          graphLeak graph distribution elements source).sum) *
      lay elements graph.elementIndex
        (graphWalk graph distribution elements personalization).restart
          (0 + graph.elementIndex state) =
    (graphWalk graph distribution elements personalization).step elements.toFinset damping mass
      state := by
  have summed (value : V → S) : (listing.map fun source =>
      lay elements graph.elementIndex mass (graph.elementIndex source) * value source).sum =
        ∑ source ∈ elements.toFinset, mass source * value source := by
    rw [← sum_listed lists.nodup same]
    refine congrArg List.sum (List.map_congr_left fun source inside => ?_)
    rw [lay_at lists.nodup mass (same.mem_iff.mp inside)]
  rw [zero_add, zero_add, zero_add, summed, summed, lay_at lists.nodup _ inside]
  rfl

variable {config : PageRankConfig S}

include lists weighs exact_ in
/-- A round steps the walk of a graph, and reports how far it moves. -/
theorem roundGraph_run (same : listing.Perm elements) {before : PageRankBuffers S} {mass : V → S}
    (tracks : GraphTracks graph distribution elements personalization before mass) : ∃ after,
      roundGraph scalar graph distribution listing config before =
        (.ok (RestartWalk.distance elements.toFinset
          ((graphWalk graph distribution elements personalization).step elements.toFinset
            config.damping mass) mass), after) ∧
      GraphTracks graph distribution elements personalization after
        ((graphWalk graph distribution elements personalization).step elements.toFinset
          config.damping mass) := by
  have listed := lists.perm same
  -- What was sent last is cleared, and the ranks are distributed.
  obtain ⟨blank, cleared, _, zeros⟩ := Fills.clear tracks.next (0 : S) (S := S)
  obtain ⟨next, distributed, sent⟩ := distributeStates_run listed.indexes
    listed.inBound
    (fun element inside => distributeOutgoing_run lists weighs exact_ tracks.visible
      (same.mem_iff.mp inside)) tracks.ranks zeros 0
  have stepped (state : V) (inside : state ∈ elements) :=
    @graphWalk_step S V E _ _ graph distribution elements personalization _ lists listing same
      config.damping mass state inside
  generalize 0 + (listing.map fun source =>
    lay elements graph.elementIndex mass (graph.elementIndex source) *
      graphLeak graph distribution elements source).sum = dangling at distributed stepped
  -- The leaks restart, and the ranks are written.
  obtain ⟨ranks, applied, written⟩ := applyTeleport_lays listed.indexes listed.inBound
    lists.nodup same tracks.teleport (Nat.le_of_eq (Nat.zero_add _)) sent tracks.ranks stepped 0
  rw [zero_add, sum_listed lists.nodup same] at applied
  refine ⟨{ before with next, ranks }, ?_, tracks.visible, tracks.teleport, sent.length_le,
    written⟩
  refine Eq.trans (Mutation.onPart_bind ((Mutation.bind_run cleared).trans distributed)) ?_
  exact Mutation.onPart_run applied

variable {buffers : PageRankBuffers S}

include lists accepted exact_ in
omit [DecidableEq V] [IsStrictOrderedRing S] in
/-- The elements are marked, and what they start from is normalized. -/
theorem buildPersonalizationInto_run (same : listing.Perm elements)
    (fits : GraphFits buffers graph.elementBound) :
    ∃ teleport visibleElements,
      buildPersonalizationInto scalar graph listing personalization buffers =
        (.ok (), { buffers with teleport, visibleElements }) ∧
      Marks graph.elementBound visibleElements (· ∈ elements.map graph.elementIndex) ∧
      Fills graph.elementBound teleport (lay elements graph.elementIndex fun element =>
        restartShare personalization (elements.map graph.elementIndex)
          (graph.elementIndex element)) := by
  have listed := lists.perm same
  have values : ∀ element ∈ elements, ∀ slots : List S × List UInt8,
      valueAt scalar personalization (0 + graph.elementIndex element) slots =
        (.ok (startValue personalization (0 + graph.elementIndex element)), slots) := by
    intro element inside slots
    rw [Nat.zero_add]
    exact valueAt_run exact_ accepted (lists.inBound element inside)
      (List.mem_map_of_mem inside) slots
  obtain ⟨out, clearedOut, _, zeros⟩ := Fills.clear fits.teleport (0 : S) (S := S)
  obtain ⟨blank, clearedMarks, _, unmarked⟩ := Fills.clear fits.visible (0 : UInt8) (S := S)
  obtain ⟨⟨filledOut, marks⟩, filled, started, marked⟩ := fillStates_lays listed.indexes
    listed.inBound lists.nodup same .duplicateElement values (Nat.le_of_eq (Nat.zero_add _)) zeros
    (fun _ _ => rfl) unmarked (0, 0)
  -- The values add up to what the walk divides by.
  have sum : (0 : S) + (elements.map fun element =>
      startValue personalization (0 + graph.elementIndex element)).sum =
        ((elements.map graph.elementIndex).map (startValue personalization)).sum := by
    rw [zero_add, List.map_map]
    simp only [Nat.zero_add, Function.comp_def]
  rw [sum] at filled
  have some : 0 + elements.length ≠ 0 := by
    have states := List.length_pos_iff_ne_nil.mpr accepted.some
    rw [List.length_map] at states
    omega
  obtain ⟨teleport, normalized, shares⟩ :=
    normalizePersonalization_run some accepted.positive started
  refine ⟨teleport, marks, ?_, marked, shares.congr fun place _ => ?_⟩
  · refine Eq.trans (Mutation.onPart_bind clearedOut) ?_
    refine Eq.trans (Mutation.onPart_bind clearedMarks) ?_
    rw [ensurePersonalizationLen_run accepted, checked_ok_bind]
    refine Eq.trans (Mutation.onPart_bind filled) ?_
    exact Mutation.onPart_run normalized
  · rw [zero_add, lay_div]
    simp only [Nat.zero_add]
    rfl

include lists accepted exact_ in
omit [DecidableEq V] [IsStrictOrderedRing S] in
/-- A start that is accepted reaches buffers that track the restart. -/
theorem startGraph_run (configured : validateConfig scalar config = .ok ())
    (same : listing.Perm elements) (fits : GraphFits buffers graph.elementBound) : ∃ after,
      startGraph scalar graph listing config personalization buffers = (.ok (), after) ∧
        GraphTracks graph distribution elements personalization after
          (graphWalk graph distribution elements personalization).restart := by
  have listed := lists.perm same
  obtain ⟨teleport, visibleElements, built, marks, starts⟩ :=
    buildPersonalizationInto_run lists accepted exact_ same fits
  obtain ⟨blank, cleared, _, zeros⟩ := Fills.clear fits.ranks (0 : S) (S := S)
  have shown : ∀ element ∈ elements, lay elements graph.elementIndex
      (graphWalk graph distribution elements personalization).restart
        (0 + graph.elementIndex element) =
          (graphWalk graph distribution elements personalization).restart element := by
    intro element inside
    rw [Nat.zero_add]
    exact lay_at lists.nodup _ inside
  obtain ⟨ranks, initialized, written⟩ := initializeStates_lays listed.indexes listed.inBound
    lists.nodup same starts (Nat.le_of_eq (Nat.zero_add _)) zeros shown
  refine ⟨{ buffers with teleport, visibleElements, ranks }, ?_, marks, starts, fits.next, written⟩
  -- Every check passes, and then the ranks start from the restarts.
  unfold startGraph
  rw [configured, checked_ok_bind, Mutation.read_bind, ensureOutputLen,
    if_neg (Nat.not_lt.mpr fits.ranks), checked_ok_bind, ensureScratchLen,
    if_neg (Nat.not_lt.mpr fits.teleport), checked_ok_bind, ensureScratchLen,
    if_neg (Nat.not_lt.mpr fits.next), checked_ok_bind, ensureScratchLen,
    if_neg (Nat.not_lt.mpr fits.visible), checked_ok_bind, Mutation.bind_run built,
    initializeRanks, Mutation.read_bind]
  exact Mutation.onPart_run ((Mutation.bind_run cleared).trans initialized)

include lists weighs accepted exact_ in
/-- Runs over a graph show the masses of its walk, however the elements are listed. -/
theorem graph_shows (configured : validateConfig scalar config = .ok ())
    {outcome : Except (PageRankHalt S) (PageRankReport S)} {last : Nat}
    (reports : Reports config (fun count => RestartWalk.distance elements.toFinset
      ((graphWalk graph distribution elements personalization).masses elements.toFinset
        config.damping (count + 1))
      ((graphWalk graph distribution elements personalization).masses elements.toFinset
        config.damping count)) outcome last) (same : listing.Perm elements)
    (fits : GraphFits buffers graph.elementBound) :
    Shows (startGraph scalar graph listing config personalization)
      (roundGraph scalar graph distribution listing config)
      (pagerankGraphWithScratch scalar graph distribution listing config personalization)
      (fun buffers state => buffers.ranks[state]?) graph.elementBound
      (fun count => lay elements graph.elementIndex
        ((graphWalk graph distribution elements personalization).masses elements.toFinset
          config.damping count))
      (fun count => RestartWalk.distance elements.toFinset
        ((graphWalk graph distribution elements personalization).masses elements.toFinset
          config.damping (count + 1))
        ((graphWalk graph distribution elements personalization).masses elements.toFinset
          config.damping count)) outcome last buffers := by
  -- What the buffers track after so many rounds is the mass after so many steps.
  refine shows_of_tracks (fun after count =>
    GraphTracks graph distribution elements personalization after
      ((graphWalk graph distribution elements personalization).masses elements.toFinset
        config.damping count)) ?_ reports (of_validateConfig configured).2.2 ?_
      (startGraph_run lists accepted exact_ configured same fits)
  · exact fun before count tracks => roundGraph_run lists weighs exact_ same tracks
  · exact fun after count tracks => tracks.ranks

end Graph

end PageRank

end Oxgraph
