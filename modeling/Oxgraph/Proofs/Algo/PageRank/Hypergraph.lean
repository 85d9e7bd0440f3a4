import Oxgraph.Proofs.Algo.PageRank.Iteration

/-! Runs over hypergraphs step a walk with restart between elements and relations. -/

namespace Oxgraph

open Mutation (onPart_bind onPart_run read_bind)

namespace PageRank

section Hypergraph

variable {S V R I : Type} [Field S] [LinearOrder S] (hypergraph : PageRankHypergraph V R I)
  (distribution : HypergraphOutgoingDistribution R I S) (elements : List V) (relations : List R)
  (personalization : Option (List S))

/-- The weight of a relation under a rule. -/
def HypergraphOutgoingDistribution.relationGain : HypergraphOutgoingDistribution R I S → R → S
  | .uniform, _ => 1
  | .weighted relationWeights _, relation => relationWeights relation

/-- The weight of an incidence under a rule. -/
def HypergraphOutgoingDistribution.incidenceGain : HypergraphOutgoingDistribution R I S → I → S
  | .uniform, _ => 1
  | .weighted _ incidenceWeights, incidence => incidenceWeights incidence

/-- The share of its rank that an element sends to a relation index. -/
def elementShare (source : V) : Nat → S :=
  rowShare (· ∈ relations.map hypergraph.relationIndex) hypergraph.relationIndex
    distribution.relationGain (hypergraph.outgoingHyperedges source)

/-- The share of its rank that an element does not send. -/
def elementLeak (source : V) : S :=
  rowLeak (· ∈ relations.map hypergraph.relationIndex) hypergraph.relationIndex
    distribution.relationGain (hypergraph.outgoingHyperedges source)

/-- The share of its rank that a relation sends to an element index. -/
def relationShare (source : R) : Nat → S :=
  rowShare (· ∈ elements.map hypergraph.elementIndex)
    (fun incidence => hypergraph.elementIndex (hypergraph.incidenceElement incidence))
    distribution.incidenceGain (hypergraph.targetIncidences source)

/-- The share of its rank that a relation does not send. -/
def relationLeak (source : R) : S :=
  rowLeak (· ∈ elements.map hypergraph.elementIndex)
    (fun incidence => hypergraph.elementIndex (hypergraph.incidenceElement incidence))
    distribution.incidenceGain (hypergraph.targetIncidences source)

/-- The combined index of a state. -/
def combinedIndex : V ⊕ R → Nat :=
  Sum.elim hypergraph.elementIndex fun relation =>
    hypergraph.elementBound + hypergraph.relationIndex relation

/-- The states of both families. -/
def bothFamilies : List (V ⊕ R) := elements.map Sum.inl ++ relations.map Sum.inr

/-- The walk of a hypergraph: elements send to relations, and relations to elements. -/
def hypergraphWalk : RestartWalk (V ⊕ R) S where
  flow
    | .inl source, .inr state =>
      elementShare hypergraph distribution relations source (hypergraph.relationIndex state)
    | .inr source, .inl state =>
      relationShare hypergraph distribution elements source (hypergraph.elementIndex state)
    | _, _ => 0
  leak := Sum.elim (elementLeak hypergraph distribution relations)
    (relationLeak hypergraph distribution elements)
  restart state := restartShare personalization (hypergraphStates hypergraph elements relations)
    (combinedIndex hypergraph state)

/-- What buffers hold between rounds that have reached a mass. -/
structure HypergraphTracks (buffers : HypergraphPageRankBuffers S) (mass : V ⊕ R → S) : Prop where
  visibleElements : Marks hypergraph.elementBound buffers.visibleElements
    (· ∈ elements.map hypergraph.elementIndex)
  visibleRelations : Marks hypergraph.relationBound buffers.visibleRelations
    (· ∈ relations.map hypergraph.relationIndex)
  teleport : Fills (hypergraph.elementBound + hypergraph.relationBound) buffers.teleport
    (lay (bothFamilies elements relations) (combinedIndex hypergraph)
      (hypergraphWalk hypergraph distribution elements relations personalization).restart)
  nextElements : hypergraph.elementBound ≤ buffers.nextElements.length
  nextRelations : hypergraph.relationBound ≤ buffers.nextRelations.length
  elementRanks : Fills hypergraph.elementBound buffers.elementRanks
    (lay elements hypergraph.elementIndex (mass ∘ Sum.inl))
  relationRanks : Fills hypergraph.relationBound buffers.relationRanks
    (lay relations hypergraph.relationIndex (mass ∘ Sum.inr))

variable {hypergraph distribution elements relations personalization}

theorem map_bothFamilies : (bothFamilies elements relations).map (combinedIndex hypergraph) =
    hypergraphStates hypergraph elements relations := by
  rw [bothFamilies, List.map_append, List.map_map, List.map_map]
  rfl

omit [LinearOrder S] in
/-- Values of both families are laid family after family. -/
theorem lay_bothFamilies (values : V ⊕ R → S) (place : Nat) :
    lay (bothFamilies elements relations) (combinedIndex hypergraph) values place =
      lay elements hypergraph.elementIndex (values ∘ Sum.inl) place +
        lay relations (fun relation => hypergraph.elementBound + hypergraph.relationIndex relation)
          (values ∘ Sum.inr) place := by
  rw [bothFamilies, lay_append, lay_map, lay_map]
  rfl

variable (lists : HypergraphLists hypergraph elements relations)
include lists

/-- The states of both families have combined indexes of their own. -/
theorem distinct_states :
    ((bothFamilies elements relations).map (combinedIndex hypergraph)).Nodup := by
  rw [map_bothFamilies, hypergraphStates]
  refine List.nodup_append.mpr ⟨lists.distinctElements, ?_, ?_⟩
  · have shifted := lists.distinctRelations.map (fun _ _ => Nat.add_left_cancel :
      Function.Injective (hypergraph.elementBound + ·))
    rwa [List.map_map] at shifted
  · intro place first _ second same
    obtain ⟨element, inside, rfl⟩ := List.mem_map.mp first
    obtain ⟨relation, _, rfl⟩ := List.mem_map.mp second
    have below := lists.elementBound element inside
    omega

variable {buffers : HypergraphPageRankBuffers S}

/-- The ranks that are tracked are read by combined indexes. -/
theorem HypergraphTracks.combined {mass : V ⊕ R → S}
    (tracks : HypergraphTracks hypergraph distribution elements relations personalization buffers
      mass) (state : Nat) (below : state < hypergraph.elementBound + hypergraph.relationBound) :
    combinedRank hypergraph.elementBound buffers state =
      some (lay (bothFamilies elements relations) (combinedIndex hypergraph) mass state) := by
  rw [combinedRank, lay_bothFamilies]
  -- The indexes below the bound of elements are theirs, and the others those of relations.
  by_cases isElement : state < hypergraph.elementBound
  · have hidden : state ∉ relations.map fun relation =>
        hypergraph.elementBound + hypergraph.relationIndex relation := by
      intro listed
      obtain ⟨relation, _, rfl⟩ := List.mem_map.mp listed
      omega
    rw [if_pos isElement, lay_hidden _ hidden, add_zero]
    exact tracks.elementRanks state isElement
  · have hidden : state ∉ elements.map hypergraph.elementIndex := by
      intro listed
      obtain ⟨element, inside, rfl⟩ := List.mem_map.mp listed
      exact isElement (lists.elementBound element inside)
    rw [if_neg isElement, lay_hidden _ hidden, zero_add]
    obtain ⟨place, rfl⟩ := Nat.exists_eq_add_of_le (Nat.not_lt.mp isElement)
    rw [Nat.add_sub_cancel_left, tracks.relationRanks place (by omega), lay, lay]
    simp only [Nat.add_left_cancel_iff]

variable [DecidableEq V] [DecidableEq R] {following : List R} {listed : List V}

omit [LinearOrder S] in
/-- Sums over listings of both families are one over all states. -/
theorem sum_families (first : listed.Perm elements) (second : following.Perm relations)
    (value : V ⊕ R → S) :
    (listed.map fun element => value (.inl element)).sum +
        (following.map fun relation => value (.inr relation)).sum =
      ∑ state ∈ (bothFamilies elements relations).toFinset, value state := by
  have same : (bothFamilies listed following).Perm (bothFamilies elements relations) :=
    (first.map _).append (second.map _)
  rw [← sum_listed (distinct_states lists) same, bothFamilies, List.map_append, List.map_map,
    List.map_map, List.sum_append]
  rfl

variable [IsStrictOrderedRing S]
  (weighs : HypergraphWeighs hypergraph elements relations distribution)
  (accepted : Personalizes personalization (hypergraph.elementBound + hypergraph.relationBound)
    (hypergraphStates hypergraph elements relations))

include weighs accepted in
/-- The walk of a hypergraph is stochastic. -/
theorem hypergraphWalk_stochastic :
    (hypergraphWalk hypergraph distribution elements relations personalization).Stochastic
      (bothFamilies elements relations).toFinset := by
  -- Each family sends to the other, so that one of the two sums is nothing.
  have families (value : V ⊕ R → S) :=
    sum_families lists (List.Perm.refl elements) (List.Perm.refl relations) value
  have member_inl {element : V}
      (inside : .inl element ∈ (bothFamilies elements relations).toFinset) :
      element ∈ elements := by simpa [bothFamilies] using inside
  have member_inr {relation : R}
      (inside : .inr relation ∈ (bothFamilies elements relations).toFinset) :
      relation ∈ relations := by simpa [bothFamilies] using inside
  constructor
  case flow =>
    rintro (source | source) from_ (state | state) _
    · exact le_refl 0
    · refine rowShare_nonneg (fun relation member => ?_) _
      cases distribution with
      | uniform => exact zero_le_one
      | weighted => exact weighs.1 source (member_inl from_) relation member
    · refine rowShare_nonneg (fun incidence member => ?_) _
      cases distribution with
      | uniform => exact zero_le_one
      | weighted => exact (weighs.2 source (member_inr from_) incidence member).2
    · exact le_refl 0
  case leak =>
    rintro (source | source) _
    · exact rowLeak_nonneg
    · exact rowLeak_nonneg
  case whole =>
    rintro (source | source) _
    · rw [← families]
      have nothing : (elements.map fun _ => (0 : S)).sum = 0 := by simp
      show (elements.map fun _ => (0 : S)).sum + _ + _ = 1
      rw [nothing, zero_add]
      exact sum_rowShare lists.distinctRelations fun _ => Iff.rfl
    · rw [← families]
      have nothing : (relations.map fun _ => (0 : S)).sum = 0 := by simp
      show _ + (relations.map fun _ => (0 : S)).sum + _ = 1
      rw [nothing, add_zero]
      exact sum_rowShare lists.distinctElements fun _ => Iff.rfl
  case restart =>
    intro state inside
    refine restartShare_nonneg accepted ?_
    rw [← map_bothFamilies]
    exact List.mem_map_of_mem (List.mem_toFinset.mp inside)
  case total =>
    have whole := sum_restartShare (ne_of_gt accepted.positive)
    rw [← map_bothFamilies, List.map_map] at whole
    rw [← sum_listed (distinct_states lists) (List.Perm.refl _), ← whole, map_bothFamilies]
    rfl

omit [IsStrictOrderedRing S] in
/-- What relations send to an element is what the walk sends to it. -/
theorem sum_to_element (second : following.Perm relations) (mass : V ⊕ R → S) (state : V) :
    (following.map fun source => lay relations hypergraph.relationIndex (mass ∘ Sum.inr)
        (hypergraph.relationIndex source) *
          relationShare hypergraph distribution elements source
            (hypergraph.elementIndex state)).sum =
      ∑ source ∈ (bothFamilies elements relations).toFinset, mass source *
        (hypergraphWalk hypergraph distribution elements relations personalization).flow source
          (.inl state) := by
  rw [← sum_families lists (List.Perm.refl elements) second]
  have nothing : (elements.map fun element => mass (.inl element) *
      (hypergraphWalk hypergraph distribution elements relations personalization).flow
        (.inl element) (.inl state)).sum = 0 := by simp [hypergraphWalk]
  rw [nothing, zero_add]
  refine congrArg List.sum (List.map_congr_left fun source inside => ?_)
  rw [lay_at lists.distinctRelations _ (second.mem_iff.mp inside)]
  rfl

omit [IsStrictOrderedRing S] in
/-- What elements send to a relation is what the walk sends to it. -/
theorem sum_to_relation (first : listed.Perm elements) (mass : V ⊕ R → S) (state : R) :
    (listed.map fun source => lay elements hypergraph.elementIndex (mass ∘ Sum.inl)
        (hypergraph.elementIndex source) *
          elementShare hypergraph distribution relations source
            (hypergraph.relationIndex state)).sum =
      ∑ source ∈ (bothFamilies elements relations).toFinset, mass source *
        (hypergraphWalk hypergraph distribution elements relations personalization).flow source
          (.inr state) := by
  rw [← sum_families lists first (List.Perm.refl relations)]
  have nothing : (relations.map fun relation => mass (.inr relation) *
      (hypergraphWalk hypergraph distribution elements relations personalization).flow
        (.inr relation) (.inr state)).sum = 0 := by simp [hypergraphWalk]
  rw [nothing, add_zero]
  refine congrArg List.sum (List.map_congr_left fun source inside => ?_)
  rw [lay_at lists.distinctElements _ (first.mem_iff.mp inside)]
  rfl

omit [IsStrictOrderedRing S] in
/-- What both families do not send is what leaks from the walk. -/
theorem sum_leaks {listed : List V} {following : List R} (first : listed.Perm elements)
    (second : following.Perm relations) (mass : V ⊕ R → S) :
    (listed.map fun source => lay elements hypergraph.elementIndex (mass ∘ Sum.inl)
        (hypergraph.elementIndex source) *
          elementLeak hypergraph distribution relations source).sum +
      (following.map fun source => lay relations hypergraph.relationIndex (mass ∘ Sum.inr)
        (hypergraph.relationIndex source) *
          relationLeak hypergraph distribution elements source).sum =
      ∑ source ∈ (bothFamilies elements relations).toFinset, mass source *
        (hypergraphWalk hypergraph distribution elements relations personalization).leak
          source := by
  rw [← sum_families lists first second]
  refine congrArg₂ (· + ·) (congrArg List.sum (List.map_congr_left fun source inside => ?_))
    (congrArg List.sum (List.map_congr_left fun source inside => ?_))
  · rw [lay_at lists.distinctElements _ (first.mem_iff.mp inside)]
    rfl
  · rw [lay_at lists.distinctRelations _ (second.mem_iff.mp inside)]
    rfl

omit [IsStrictOrderedRing S] in
/-- A step of the walk at an element, from the sums that a round computes. -/
theorem hypergraphWalk_step_element {following : List R} (second : following.Perm relations)
    (damping : S) (mass : V ⊕ R → S) {state : V} (inside : state ∈ elements) :
    damping * (0 + (following.map fun source =>
        lay relations hypergraph.relationIndex (mass ∘ Sum.inr)
          (hypergraph.relationIndex source) *
            relationShare hypergraph distribution elements source
              (hypergraph.elementIndex state)).sum) +
      teleportScale damping (∑ source ∈ (bothFamilies elements relations).toFinset, mass source *
        (hypergraphWalk hypergraph distribution elements relations personalization).leak source) *
      lay (bothFamilies elements relations) (combinedIndex hypergraph)
        (hypergraphWalk hypergraph distribution elements relations personalization).restart
          (0 + hypergraph.elementIndex state) =
    (hypergraphWalk hypergraph distribution elements relations personalization).step
      (bothFamilies elements relations).toFinset damping mass (.inl state) := by
  have member : .inl state ∈ bothFamilies elements relations := by simpa [bothFamilies] using inside
  have restarts := lay_at (distinct_states lists)
    (hypergraphWalk hypergraph distribution elements relations personalization).restart member
  rw [zero_add, Nat.zero_add, sum_to_element lists second]
  exact congrArg (_ + _ * ·) restarts

omit [IsStrictOrderedRing S] in
/-- A step of the walk at a relation, from the sums that a round computes. -/
theorem hypergraphWalk_step_relation {listed : List V} (first : listed.Perm elements)
    (damping : S) (mass : V ⊕ R → S) {state : R} (inside : state ∈ relations) :
    damping * (0 + (listed.map fun source =>
        lay elements hypergraph.elementIndex (mass ∘ Sum.inl)
          (hypergraph.elementIndex source) *
            elementShare hypergraph distribution relations source
              (hypergraph.relationIndex state)).sum) +
      teleportScale damping (∑ source ∈ (bothFamilies elements relations).toFinset, mass source *
        (hypergraphWalk hypergraph distribution elements relations personalization).leak source) *
      lay (bothFamilies elements relations) (combinedIndex hypergraph)
        (hypergraphWalk hypergraph distribution elements relations personalization).restart
          (hypergraph.elementBound + hypergraph.relationIndex state) =
    (hypergraphWalk hypergraph distribution elements relations personalization).step
      (bothFamilies elements relations).toFinset damping mass (.inr state) := by
  have member : .inr state ∈ bothFamilies elements relations := by simpa [bothFamilies] using inside
  have restarts := lay_at (distinct_states lists)
    (hypergraphWalk hypergraph distribution elements relations personalization).restart member
  rw [zero_add, sum_to_relation lists first]
  exact congrArg (_ + _ * ·) restarts

variable {scalar : PageRankScalar S} (exact_ : Exact scalar)

omit [Field S] [LinearOrder S] [IsStrictOrderedRing S] [DecidableEq V] [DecidableEq R] in
/-- The checks of listed elements pass. -/
theorem HypergraphLists.elementIndexes : ∀ element ∈ elements,
    (checkedHyperElementIndex hypergraph element : Except (PageRankError S) Nat) =
      .ok (hypergraph.elementIndex element) :=
  fun element inside => if_pos (lists.elementBound element inside)

omit [Field S] [LinearOrder S] [IsStrictOrderedRing S] [DecidableEq V] [DecidableEq R] in
/-- The checks of listed relations pass. -/
theorem HypergraphLists.relationIndexes : ∀ relation ∈ relations,
    (checkedRelationIndexFor hypergraph relation : Except (PageRankError S) Nat) =
      .ok (hypergraph.relationIndex relation) :=
  fun relation inside => if_pos (lists.relationBound relation inside)

omit [DecidableEq V] [DecidableEq R] in
/-- What is asked of listed states does not depend on how they are listed. -/
theorem HypergraphLists.perm (first : listed.Perm elements) (second : following.Perm relations) :
    HypergraphLists hypergraph listed following where
  distinctElements := (first.map _).nodup_iff.mpr lists.distinctElements
  distinctRelations := (second.map _).nodup_iff.mpr lists.distinctRelations
  elementBound element inside := lists.elementBound element (first.mem_iff.mp inside)
  relationBound relation inside := lists.relationBound relation (second.mem_iff.mp inside)
  hyperedges element inside := lists.hyperedges element (first.mem_iff.mp inside)
  targets relation inside := lists.targets relation (second.mem_iff.mp inside)
  small := lists.small

include weighs exact_

omit [DecidableEq V] [DecidableEq R] in
/-- Both rules distribute the rank of an element by its row of relations. -/
theorem distributeFromElement_run {visible : List UInt8}
    (marks : Marks hypergraph.relationBound visible (· ∈ relations.map hypergraph.relationIndex))
    {element : V} (inside : element ∈ elements) :
    Distributes hypergraph.relationBound
      (fun rank => distributeFromElement scalar hypergraph distribution element rank visible)
      (elementShare hypergraph distribution relations element)
      (elementLeak hypergraph distribution relations element) := by
  have inBound := lists.hyperedges element inside
  have targets : ∀ relation ∈ hypergraph.outgoingHyperedges element,
      (checkedRelationIndexFor hypergraph relation : Except (PageRankError S) Nat) =
        .ok (hypergraph.relationIndex relation) :=
    fun relation member => if_pos (inBound relation member)
  cases distribution with
  | uniform => exact distributeUniform_run marks targets inBound exact_
  | weighted =>
    refine distributeWeighted_run marks targets inBound fun relation member => ?_
    rw [checkedHyperRelationWeight, checkRelationIndex, if_pos (inBound relation member)]
    exact checkValue_run exact_ (weighs.1 element inside relation member)

omit [DecidableEq V] [DecidableEq R] in
/-- Both rules distribute the rank of a relation by its row of target incidences. -/
theorem distributeFromRelation_run {visible : List UInt8}
    (marks : Marks hypergraph.elementBound visible (· ∈ elements.map hypergraph.elementIndex))
    {relation : R} (inside : relation ∈ relations) :
    Distributes hypergraph.elementBound
      (fun rank => distributeFromRelation scalar hypergraph distribution relation rank visible)
      (relationShare hypergraph distribution elements relation)
      (relationLeak hypergraph distribution elements relation) := by
  have inBound := lists.targets relation inside
  have targets : ∀ incidence ∈ hypergraph.targetIncidences relation,
      (checkedHyperElementIndex hypergraph (hypergraph.incidenceElement incidence) :
        Except (PageRankError S) Nat) =
          .ok (hypergraph.elementIndex (hypergraph.incidenceElement incidence)) :=
    fun incidence member => if_pos (inBound incidence member)
  cases distribution with
  | uniform => exact distributeUniform_run marks targets inBound exact_
  | weighted =>
    refine distributeWeighted_run marks targets inBound fun incidence member => ?_
    obtain ⟨indexed, nonneg⟩ := weighs.2 relation inside incidence member
    rw [checkedIncidenceWeight, if_neg (Nat.not_le.mpr indexed)]
    exact checkValue_run exact_ nonneg

variable {config : PageRankConfig S}

/-- A round steps the walk of a hypergraph, and reports how far it moves. -/
theorem roundHypergraph_run (first : listed.Perm elements) (second : following.Perm relations)
    {before : HypergraphPageRankBuffers S} {mass : V ⊕ R → S}
    (tracks : HypergraphTracks hypergraph distribution elements relations personalization before
      mass) : ∃ after,
      roundHypergraph scalar hypergraph distribution listed following config before =
        (.ok (RestartWalk.distance (bothFamilies elements relations).toFinset
          ((hypergraphWalk hypergraph distribution elements relations personalization).step
            (bothFamilies elements relations).toFinset config.damping mass) mass), after) ∧
      HypergraphTracks hypergraph distribution elements relations personalization after
        ((hypergraphWalk hypergraph distribution elements relations personalization).step
          (bothFamilies elements relations).toFinset config.damping mass) := by
  have listings := lists.perm first second
  -- What was sent last is cleared, and elements and relations send to each other.
  obtain ⟨blankElements, clearedElements, _, zeroElements⟩ :=
    Fills.clear tracks.nextElements (0 : S) (S := S)
  obtain ⟨blankRelations, clearedRelations, _, zeroRelations⟩ :=
    Fills.clear tracks.nextRelations (0 : S) (S := S)
  obtain ⟨nextRelations, fromElements, sentRelations⟩ := distributeStates_run
    listings.elementIndexes listings.elementBound
    (fun element inside => distributeFromElement_run lists weighs exact_
      tracks.visibleRelations (first.mem_iff.mp inside)) tracks.elementRanks zeroRelations 0
  rw [zero_add] at fromElements
  obtain ⟨left, isLeft⟩ : ∃ left, left = (listed.map fun source =>
      lay elements hypergraph.elementIndex (mass ∘ Sum.inl) (hypergraph.elementIndex source) *
        elementLeak hypergraph distribution relations source).sum := ⟨_, rfl⟩
  rw [← isLeft] at fromElements
  obtain ⟨nextElements, fromRelations, sentElements⟩ := distributeStates_run
    listings.relationIndexes listings.relationBound
    (fun relation inside => distributeFromRelation_run lists weighs exact_
      tracks.visibleElements (second.mem_iff.mp inside)) tracks.relationRanks zeroElements left
  have leaks := @sum_leaks S V R I _ _ hypergraph distribution elements relations personalization
    lists _ _ listed following first second mass
  rw [← isLeft] at leaks
  obtain ⟨dangling, isDangling⟩ : ∃ dangling, dangling =
      ∑ source ∈ (bothFamilies elements relations).toFinset, mass source *
        (hypergraphWalk hypergraph distribution elements relations personalization).leak source :=
    ⟨_, rfl⟩
  rw [leaks, ← isDangling] at fromRelations
  have stepped_element (state : V) (inside : state ∈ elements) :=
    @hypergraphWalk_step_element S V R I _ _ hypergraph distribution elements relations
      personalization lists _ _ following second config.damping mass state inside
  have stepped_relation (state : R) (inside : state ∈ relations) :=
    @hypergraphWalk_step_relation S V R I _ _ hypergraph distribution elements relations
      personalization lists _ _ listed first config.damping mass state inside
  rw [← isDangling] at stepped_element stepped_relation
  -- The leaks restart, and the ranks of both families are written.
  obtain ⟨elementRanks, appliedElements, writtenElements⟩ := applyTeleport_lays
    listings.elementIndexes listings.elementBound lists.distinctElements first tracks.teleport
    (show 0 + hypergraph.elementBound ≤ _ by omega) sentElements tracks.elementRanks
    stepped_element 0
  obtain ⟨relationRanks, appliedRelations, writtenRelations⟩ := applyTeleport_lays
    listings.relationIndexes listings.relationBound lists.distinctRelations second
    tracks.teleport (Nat.le_refl _) sentRelations tracks.relationRanks stepped_relation
    (0 + (listed.map fun state =>
      |(hypergraphWalk hypergraph distribution elements relations personalization).step
        (bothFamilies elements relations).toFinset config.damping mass (.inl state) -
          mass (.inl state)|).sum)
  have moved := sum_families lists first second fun state =>
    |(hypergraphWalk hypergraph distribution elements relations personalization).step
      (bothFamilies elements relations).toFinset config.damping mass state - mass state|
  rw [zero_add] at appliedElements
  simp only [zero_add, Function.comp_def, moved] at appliedElements appliedRelations
  refine ⟨{ before with nextElements, nextRelations, elementRanks, relationRanks }, ?_,
    tracks.visibleElements, tracks.visibleRelations, tracks.teleport, sentElements.length_le,
    sentRelations.length_le, writtenElements, writtenRelations⟩
  unfold roundHypergraph
  rw [read_bind]
  refine Eq.trans (onPart_bind clearedElements) ?_
  refine Eq.trans (onPart_bind clearedRelations) ?_
  refine Eq.trans (onPart_bind fromElements) ?_
  refine Eq.trans (onPart_bind fromRelations) ?_
  rw [read_bind]
  refine Eq.trans (onPart_bind appliedElements) ?_
  exact onPart_run appliedRelations

omit weighs in
include accepted in
omit [DecidableEq V] [DecidableEq R] [IsStrictOrderedRing S] in
/-- Both families are marked, and what they start from is normalized. -/
theorem buildHyperPersonalizationInto_run (first : listed.Perm elements)
    (second : following.Perm relations)
    (fits : HypergraphFits buffers hypergraph.elementBound hypergraph.relationBound) :
    ∃ teleport visibleElements visibleRelations,
      buildHyperPersonalizationInto scalar hypergraph listed following
          (hypergraph.elementBound + hypergraph.relationBound) personalization buffers =
        (.ok (), { buffers with teleport, visibleElements, visibleRelations }) ∧
      Marks hypergraph.elementBound visibleElements (· ∈ elements.map hypergraph.elementIndex) ∧
      Marks hypergraph.relationBound visibleRelations
        (· ∈ relations.map hypergraph.relationIndex) ∧
      Fills (hypergraph.elementBound + hypergraph.relationBound) teleport
        (lay (bothFamilies elements relations) (combinedIndex hypergraph) fun state =>
          restartShare personalization (hypergraphStates hypergraph elements relations)
            (combinedIndex hypergraph state)) := by
  have listings := lists.perm first second
  have elementValues : ∀ element ∈ elements, ∀ slots : List S × List UInt8,
      valueAt scalar personalization (0 + hypergraph.elementIndex element) slots =
        (.ok (startValue personalization (0 + hypergraph.elementIndex element)), slots) := by
    intro element inside slots
    have below := lists.elementBound element inside
    rw [Nat.zero_add]
    exact valueAt_run exact_ accepted (by omega)
      (List.mem_append_left _ (List.mem_map_of_mem inside)) slots
  have relationValues : ∀ relation ∈ relations, ∀ slots : List S × List UInt8,
      valueAt scalar personalization
          (hypergraph.elementBound + hypergraph.relationIndex relation) slots =
        (.ok (startValue personalization
          (hypergraph.elementBound + hypergraph.relationIndex relation)), slots) := by
    intro relation inside slots
    have below := lists.relationBound relation inside
    exact valueAt_run exact_ accepted (by omega)
      (List.mem_append_right _ (List.mem_map_of_mem inside)) slots
  obtain ⟨out, clearedOut, _, zeros⟩ := Fills.clear fits.teleport (0 : S) (S := S)
  obtain ⟨blankElements, clearedElements, _, unmarkedElements⟩ :=
    Fills.clear fits.visibleElements (0 : UInt8) (S := S)
  obtain ⟨blankRelations, clearedRelations, _, unmarkedRelations⟩ :=
    Fills.clear fits.visibleRelations (0 : UInt8) (S := S)
  obtain ⟨⟨filledOut, visibleElements⟩, filledElements, startedElements, markedElements⟩ :=
    fillStates_lays listings.elementIndexes listings.elementBound lists.distinctElements first
      .duplicateElement elementValues (show 0 + hypergraph.elementBound ≤ _ by omega) zeros
      (fun _ _ => rfl) unmarkedElements (0, 0)
  -- The slots of relations are past those of elements.
  have absent : ∀ relation ∈ relations, (0 : S) + lay elements (0 + hypergraph.elementIndex ·)
      (fun element => startValue personalization (0 + hypergraph.elementIndex element))
        (hypergraph.elementBound + hypergraph.relationIndex relation) = 0 := by
    intro relation _
    rw [zero_add]
    refine lay_hidden _ fun listed => ?_
    obtain ⟨element, inside, same⟩ := List.mem_map.mp listed
    have below := lists.elementBound element inside
    omega
  obtain ⟨⟨filledAll, visibleRelations⟩, filledRelations, started, markedRelations⟩ :=
    fillStates_lays listings.relationIndexes listings.relationBound lists.distinctRelations second
      .duplicateRelation relationValues (Nat.le_refl _) startedElements absent unmarkedRelations
      (0 + elements.length, 0 + (elements.map fun element =>
        startValue personalization (0 + hypergraph.elementIndex element)).sum)
  -- The values add up to what the walk divides by.
  have sum : (0 : S) + (elements.map fun element =>
        startValue personalization (0 + hypergraph.elementIndex element)).sum +
      (relations.map fun relation => startValue personalization
        (hypergraph.elementBound + hypergraph.relationIndex relation)).sum =
      ((hypergraphStates hypergraph elements relations).map (startValue personalization)).sum := by
    rw [zero_add, hypergraphStates, List.map_append, List.map_map, List.map_map, List.sum_append]
    simp only [Nat.zero_add, Function.comp_def]
  rw [sum] at filledRelations
  have some : 0 + elements.length + relations.length ≠ 0 := by
    have states := List.length_pos_iff_ne_nil.mpr accepted.some
    rw [hypergraphStates, List.length_append, List.length_map, List.length_map] at states
    omega
  obtain ⟨teleport, normalized, shares⟩ :=
    normalizePersonalization_run some accepted.positive started
  refine ⟨teleport, visibleElements, visibleRelations, ?_, markedElements, markedRelations,
    shares.congr fun place _ => ?_⟩
  · unfold buildHyperPersonalizationInto
    refine Eq.trans (onPart_bind clearedOut) ?_
    refine Eq.trans (onPart_bind clearedElements) ?_
    refine Eq.trans (onPart_bind clearedRelations) ?_
    rw [ensurePersonalizationLen_run accepted, checked_ok_bind]
    refine Eq.trans (onPart_bind filledElements) ?_
    refine Eq.trans (onPart_bind filledRelations) ?_
    exact onPart_run normalized
  · have laid : (0 : S) + lay elements (0 + hypergraph.elementIndex ·)
          (fun element => startValue personalization (0 + hypergraph.elementIndex element)) place +
        lay relations (hypergraph.elementBound + hypergraph.relationIndex ·) (fun relation =>
          startValue personalization (hypergraph.elementBound + hypergraph.relationIndex relation))
          place =
        lay (bothFamilies elements relations) (combinedIndex hypergraph)
          (fun state => startValue personalization (combinedIndex hypergraph state)) place := by
      rw [lay_bothFamilies, zero_add]
      simp only [Nat.zero_add]
      rfl
    rw [laid, lay_div]
    rfl

omit weighs in
include accepted in
omit [DecidableEq V] [DecidableEq R] [IsStrictOrderedRing S] in
/-- A start that is accepted reaches buffers that track the restart. -/
theorem startHypergraph_run (configured : validateConfig scalar config = .ok ())
    (first : listed.Perm elements) (second : following.Perm relations)
    (fits : HypergraphFits buffers hypergraph.elementBound hypergraph.relationBound) : ∃ after,
      startHypergraph scalar hypergraph listed following config personalization buffers =
        (.ok (), after) ∧
      HypergraphTracks hypergraph distribution elements relations personalization after
        (hypergraphWalk hypergraph distribution elements relations personalization).restart := by
  have listings := lists.perm first second
  obtain ⟨teleport, visibleElements, visibleRelations, built, marksElements, marksRelations,
    starts⟩ := buildHyperPersonalizationInto_run lists accepted exact_ first second fits
  obtain ⟨blankElements, clearedElements, _, zeroElements⟩ :=
    Fills.clear fits.elementRanks (0 : S) (S := S)
  obtain ⟨blankRelations, clearedRelations, _, zeroRelations⟩ :=
    Fills.clear fits.relationRanks (0 : S) (S := S)
  have elementsShown : ∀ element ∈ elements,
      lay (bothFamilies elements relations) (combinedIndex hypergraph)
        (hypergraphWalk hypergraph distribution elements relations personalization).restart
          (0 + hypergraph.elementIndex element) =
        ((hypergraphWalk hypergraph distribution elements relations personalization).restart ∘
          Sum.inl) element := by
    intro element inside
    rw [Nat.zero_add]
    exact lay_at (distinct_states lists) _
      (List.mem_append_left _ (List.mem_map_of_mem inside) :
        .inl element ∈ bothFamilies elements relations)
  have relationsShown : ∀ relation ∈ relations,
      lay (bothFamilies elements relations) (combinedIndex hypergraph)
        (hypergraphWalk hypergraph distribution elements relations personalization).restart
          (hypergraph.elementBound + hypergraph.relationIndex relation) =
        ((hypergraphWalk hypergraph distribution elements relations personalization).restart ∘
          Sum.inr) relation := by
    intro relation inside
    exact lay_at (distinct_states lists) _
      (List.mem_append_right _ (List.mem_map_of_mem inside) :
        .inr relation ∈ bothFamilies elements relations)
  obtain ⟨elementRanks, startedElements, writtenElements⟩ := initializeStates_lays
    listings.elementIndexes listings.elementBound lists.distinctElements first starts
    (show 0 + hypergraph.elementBound ≤ _ by omega) zeroElements elementsShown
  obtain ⟨relationRanks, startedRelations, writtenRelations⟩ := initializeStates_lays
    listings.relationIndexes listings.relationBound lists.distinctRelations second starts
    (Nat.le_refl _) zeroRelations relationsShown
  have stateBound : checkedStateBound hypergraph.elementBound hypergraph.relationBound
      buffers.elementRanks.length buffers.relationRanks.length =
        (.ok (hypergraph.elementBound + hypergraph.relationBound) :
          Except (PageRankError S) Nat) := by
    rw [checkedStateBound, ensureOutputLen, if_neg (Nat.not_lt.mpr fits.elementRanks),
      ensureOutputLen, if_neg (Nat.not_lt.mpr fits.relationRanks), checkedAdd, if_pos lists.small]
    rfl
  refine ⟨{ buffers with
      teleport, visibleElements, visibleRelations, elementRanks, relationRanks }, ?_,
    marksElements, marksRelations, starts, fits.nextElements, fits.nextRelations,
    writtenElements, writtenRelations⟩
  -- Every check passes, and then the ranks of both families start from the restarts.
  unfold startHypergraph
  rw [configured, checked_ok_bind, read_bind, stateBound, checked_ok_bind,
    ensureScratchLen, if_neg (Nat.not_lt.mpr fits.teleport), checked_ok_bind,
    ensureScratchLen, if_neg (Nat.not_lt.mpr fits.nextElements), checked_ok_bind,
    ensureScratchLen, if_neg (Nat.not_lt.mpr fits.nextRelations), checked_ok_bind,
    ensureScratchLen, if_neg (Nat.not_lt.mpr fits.visibleElements), checked_ok_bind,
    ensureScratchLen, if_neg (Nat.not_lt.mpr fits.visibleRelations), checked_ok_bind,
    Mutation.bind_run built, initializeHyperRanks, read_bind]
  refine Eq.trans (onPart_bind clearedElements) ?_
  refine Eq.trans (onPart_bind clearedRelations) ?_
  refine Eq.trans (onPart_bind startedElements) ?_
  exact onPart_run startedRelations

include weighs accepted in
/-- Runs over a hypergraph show the masses of its walk, however its states are listed. -/
theorem hypergraph_shows (configured : validateConfig scalar config = .ok ())
    {outcome : Except (PageRankHalt S) (PageRankReport S)} {last : Nat}
    (reports : Reports config (fun count =>
      RestartWalk.distance (bothFamilies elements relations).toFinset
        ((hypergraphWalk hypergraph distribution elements relations personalization).masses
          (bothFamilies elements relations).toFinset config.damping (count + 1))
        ((hypergraphWalk hypergraph distribution elements relations personalization).masses
          (bothFamilies elements relations).toFinset config.damping count)) outcome last)
    (first : listed.Perm elements) (second : following.Perm relations)
    (fits : HypergraphFits buffers hypergraph.elementBound hypergraph.relationBound) :
    Shows (startHypergraph scalar hypergraph listed following config personalization)
      (roundHypergraph scalar hypergraph distribution listed following config)
      (pagerankHypergraphWithScratch scalar hypergraph distribution listed following config
        personalization)
      (combinedRank hypergraph.elementBound)
      (hypergraph.elementBound + hypergraph.relationBound)
      (fun count => lay (bothFamilies elements relations) (combinedIndex hypergraph)
        ((hypergraphWalk hypergraph distribution elements relations personalization).masses
          (bothFamilies elements relations).toFinset config.damping count))
      (fun count => RestartWalk.distance (bothFamilies elements relations).toFinset
        ((hypergraphWalk hypergraph distribution elements relations personalization).masses
          (bothFamilies elements relations).toFinset config.damping (count + 1))
        ((hypergraphWalk hypergraph distribution elements relations personalization).masses
          (bothFamilies elements relations).toFinset config.damping count))
      outcome last buffers := by
  -- What the buffers track after so many rounds is the mass after so many steps.
  refine shows_of_tracks (fun after count =>
    HypergraphTracks hypergraph distribution elements relations personalization after
      ((hypergraphWalk hypergraph distribution elements relations personalization).masses
        (bothFamilies elements relations).toFinset config.damping count)) ?_ reports
    (of_validateConfig configured).2.2 ?_
    (startHypergraph_run lists accepted exact_ configured first second fits)
  · exact fun before count tracks => roundHypergraph_run lists weighs exact_ first second tracks
  · exact fun after count tracks => tracks.combined lists

end Hypergraph

end PageRank

end Oxgraph
