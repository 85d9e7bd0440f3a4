import Oxgraph.Proofs.Bcsr.Frozen
import Oxgraph.Proofs.Bcsr.Incidences
import Oxgraph.Spec.Weights

/-! Freezing carries every weight to the incidence, the vertex or the hyperedge it was set for. -/

namespace Oxgraph.Bcsr

open Layout
open List (getElem?_map length_append length_map length_set)

-- Weights and the assignments they come from.

section

variable {W : Type}

/-- Setting the item that is there changes nothing. -/
theorem set_getElem? {items : List W} {index : Nat} {item : W} (read : items[index]? = some item) :
    items.set index item = items := by
  obtain ⟨inside, rfl⟩ := List.getElem?_eq_some_iff.mp read
  exact List.set_getElem_self inside

/-- Every weight is the latest that its position was assigned. -/
def Logged (weights : List W) (log : List (Nat × W)) : Prop :=
  ∀ index weight, weights[index]? = some weight → log.lookup index = some weight

/-- A new weight is assigned to the new position. -/
theorem Logged.push {weights : List W} {log : List (Nat × W)} (logged : Logged weights log)
    (weight : W) : Logged (weights ++ [weight]) ((weights.length, weight) :: log) := by
  intro index found read
  rcases Nat.lt_trichotomy index weights.length with before | rfl | after
  · rw [List.getElem?_append_left before] at read
    rw [List.lookup_cons, beq_false_of_ne (Nat.ne_of_lt before)]
    exact logged index found read
  · rw [List.getElem?_concat_length] at read
    rw [List.lookup_cons_self, read]
  · rw [List.getElem?_eq_none (by rw [length_append]; exact after)] at read
    cases read

/-- A weight that is set is assigned to its position. -/
theorem Logged.set {weights : List W} {log : List (Nat × W)} (logged : Logged weights log)
    (place : Nat) (weight : W) : Logged (weights.set place weight) ((place, weight) :: log) := by
  intro index found read
  by_cases same : index = place
  · subst same
    have inside := (List.getElem?_eq_some_iff.mp read).1
    rw [length_set] at inside
    rw [List.getElem?_set_self inside] at read
    rw [List.lookup_cons_self, read]
  · rw [List.getElem?_set_ne (Ne.symm same)] at read
    rw [List.lookup_cons, beq_false_of_ne same]
    exact logged index found read

end

section

variable {V IW : Type} [LayoutIndex V]

/-- The slots of the participants of a hyperedge in a role. -/
def NormalizedHyperedgeRecord.slotsOf (record : NormalizedHyperedgeRecord V IW)
    (role : HyperParticipantRole) : List Nat :=
  (record.participants role).map fun participant => toNat participant.1

omit [LayoutIndex V] in
theorem NormalizedHyperedgeRecord.participants_withParticipants
    (record : NormalizedHyperedgeRecord V IW) (participants : List (V × IW))
    (role other : HyperParticipantRole) :
    (record.withParticipants participants role).participants other =
      if other = role then participants else record.participants other := by
  cases role <;> cases other <;> rfl

/-- Every participant's weight is the latest that its hyperedge, role and vertex were assigned. -/
def IncidencesLogged (records : List (NormalizedHyperedgeRecord V IW))
    (log : List (IncidenceKey × IW)) : Prop :=
  ∀ (hyperedge : Nat) (record : NormalizedHyperedgeRecord V IW),
    records[hyperedge]? = some record → ∀ role, ∀ participant ∈ record.participants role,
      log.lookup (hyperedge, role, toNat participant.1) = some participant.2

/-- A participant of a side without repetition is found among the side's assignments. -/
theorem lookup_participants {side : List (V × IW)}
    (nodup : (side.map fun participant => toNat participant.1).Nodup) {participant : V × IW}
    (member : participant ∈ side) (hyperedge : Nat) (role : HyperParticipantRole) :
    (Ledger.participants hyperedge role side).lookup (hyperedge, role, toNat participant.1) =
      some participant.2 := by
  induction side with
  | nil => cases member
  | cons first rest ih =>
    rw [List.map_cons, List.nodup_cons] at nodup
    rw [Ledger.participants, List.map_cons]
    rcases List.mem_cons.mp member with rfl | later
    · exact List.lookup_cons_self
    · have differs : toNat participant.1 ≠ toNat first.1 := by
        intro same
        exact nodup.1 (same ▸ List.mem_map_of_mem later)
      have apart : (hyperedge, role, toNat participant.1) ≠ (hyperedge, role, toNat first.1) :=
        fun same => differs (Prod.mk.inj (Prod.mk.inj same).2).2
      rw [List.lookup_cons, beq_false_of_ne apart]
      exact ih nodup.2 later

/-- A key of another hyperedge or role is not among a side's assignments. -/
theorem lookup_participants_none {side : List (V × IW)} {hyperedge other vertex : Nat}
    {role second : HyperParticipantRole} (apart : (other, second) ≠ (hyperedge, role)) :
    (Ledger.participants hyperedge role side).lookup (other, second, vertex) = none := by
  rw [List.lookup_eq_none_iff]
  intro entry member
  obtain ⟨participant, _, rfl⟩ := List.mem_map.mp member
  have differs : (other, second, vertex) ≠ (hyperedge, role, toNat participant.1) := by
    intro same
    obtain ⟨first, rest⟩ := Prod.mk.inj same
    exact apart (Prod.ext first (Prod.mk.inj rest).1)
  exact bne_iff_ne.mpr differs

/-- A new hyperedge is assigned the weights that its participants come with. -/
theorem IncidencesLogged.push {records : List (NormalizedHyperedgeRecord V IW)}
    {log : List (IncidenceKey × IW)} (logged : IncidencesLogged records log)
    {record : NormalizedHyperedgeRecord V IW} (nodup : ∀ role, (record.slotsOf role).Nodup) :
    IncidencesLogged (records ++ [record])
      (Ledger.participants records.length .source record.sources ++
        Ledger.participants records.length .target record.targets ++ log) := by
  intro hyperedge found read role participant member
  rw [List.lookup_append, List.lookup_append]
  -- The keys of the new hyperedge are its own, so those of others are looked up as before.
  rcases Nat.lt_trichotomy hyperedge records.length with before | rfl | after
  · have apart (second : HyperParticipantRole) : (hyperedge, role) ≠ (records.length, second) :=
      fun same => Nat.ne_of_lt before (Prod.mk.inj same).1
    rw [List.getElem?_append_left before] at read
    rw [lookup_participants_none (apart .source), lookup_participants_none (apart .target)]
    exact logged hyperedge found read role participant member
  · rw [List.getElem?_concat_length] at read
    obtain rfl := Option.some.inj read
    cases role with
    | source =>
      have found := lookup_participants (nodup .source) member records.length .source
      change (Ledger.participants _ _ record.sources).lookup _ = _ at found
      rw [found]
      rfl
    | target =>
      have apart : (records.length, HyperParticipantRole.target) ≠ (records.length, .source) :=
        fun same => nomatch (Prod.mk.inj same).2
      have found := lookup_participants (nodup .target) member records.length .target
      change (Ledger.participants _ _ record.targets).lookup _ = _ at found
      rw [lookup_participants_none apart, found]
      rfl
  · rw [List.getElem?_eq_none (by rw [length_append]; exact after)] at read
    cases read

/-- A weight that is set by position is assigned to the vertex at that position. -/
theorem IncidencesLogged.set {records : List (NormalizedHyperedgeRecord V IW)}
    {log : List (IncidenceKey × IW)} (logged : IncidencesLogged records log) {place position : Nat}
    {record : NormalizedHyperedgeRecord V IW} (read : records[place]? = some record)
    {role : HyperParticipantRole} (nodup : (record.slotsOf role).Nodup) {vertex : V} {old : IW}
    (at_ : (record.participants role)[position]? = some (vertex, old)) (weight : IW) :
    IncidencesLogged
      (records.set place (record.withParticipants
        ((record.participants role).set position (vertex, weight)) role))
      (((place, role, toNat vertex), weight) :: log) := by
  intro hyperedge found found_read second participant member
  -- Only the vertex at the position, on the side of the role, has the new key.
  have keeps (apart : (hyperedge, second, toNat participant.1) ≠ (place, role, toNat vertex))
      (before : log.lookup (hyperedge, second, toNat participant.1) = some participant.2) :
      ((((place, role, toNat vertex), weight) :: log).lookup
        (hyperedge, second, toNat participant.1)) = some participant.2 := by
    rw [List.lookup_cons, beq_false_of_ne apart]
    exact before
  by_cases same : hyperedge = place
  · subst same
    rw [List.getElem?_set_self (List.getElem?_eq_some_iff.mp read).1] at found_read
    obtain rfl := Option.some.inj found_read
    rw [NormalizedHyperedgeRecord.participants_withParticipants] at member
    by_cases sameRole : second = role
    · subst sameRole
      rw [if_pos rfl] at member
      obtain ⟨index, here⟩ := List.mem_iff_getElem?.mp member
      by_cases samePlace : index = position
      · subst samePlace
        rw [List.getElem?_set_self (List.getElem?_eq_some_iff.mp at_).1] at here
        obtain rfl := Option.some.inj here
        exact List.lookup_cons_self
      · rw [List.getElem?_set_ne (Ne.symm samePlace)] at here
        refine keeps (fun equal => samePlace ?_)
          (logged _ _ read _ _ (List.mem_of_getElem? here))
        have vertices := (Prod.mk.inj (Prod.mk.inj equal).2).2
        have first : (record.slotsOf second)[index]? = some (toNat vertex) := by
          rw [NormalizedHyperedgeRecord.slotsOf, getElem?_map, here, Option.map_some, vertices]
        have last : (record.slotsOf second)[position]? = some (toNat vertex) := by
          rw [NormalizedHyperedgeRecord.slotsOf, getElem?_map, at_, Option.map_some]
        exact (List.getElem?_inj (List.getElem?_eq_some_iff.mp first).1 nodup).mp
          (first.trans last.symm)
    · rw [if_neg sameRole] at member
      exact keeps (fun equal => sameRole (Prod.mk.inj (Prod.mk.inj equal).2).1)
        (logged _ _ read _ _ member)
  · rw [List.getElem?_set_ne (Ne.symm same)] at found_read
    exact keeps (fun equal => same (Prod.mk.inj equal).1) (logged _ _ found_read _ _ member)

end

section

variable {V R O EW RW IW : Type} [LayoutIndex V] [LayoutIndex R] [LayoutIndex O]

-- Recorded hyperedges.

namespace Recorded

variable {vertexCount : Nat} {records : List (NormalizedHyperedgeRecord V IW)} {added : Added}
  (recorded : Recorded R vertexCount records added) {index : Nat}
  {record : NormalizedHyperedgeRecord V IW} (read : records[index]? = some record)
include recorded

include read in
/-- A recorded side has the vertices that were given. -/
theorem side_eq (role : HyperParticipantRole) : added.side index role = record.slotsOf role := by
  unfold Added.side
  rw [← recorded.hyperedges, List.getD_eq_getElem?_getD, getElem?_map, read]
  cases role <;> rfl

/-- A hyperedge that is not recorded has no sides. -/
theorem side_eq_nil (missing : records.length ≤ index) (role : HyperParticipantRole) :
    added.side index role = [] := by
  unfold Added.side
  rw [← recorded.hyperedges, List.getD_eq_default _ _ (by rwa [length_map])]
  cases role <;> rfl

include read in
/-- No vertex is twice on a recorded side. -/
theorem nodup_slotsOf (role : HyperParticipantRole) : (record.slotsOf role).Nodup := by
  have member : record.slots ∈ added.hyperedges := by
    rw [← recorded.hyperedges]
    exact List.mem_map_of_mem (List.mem_of_getElem? read)
  obtain ⟨sources, targets⟩ := added.sides _ member
  cases role with
  | source => exact sources.2
  | target => exact targets.2

include read in
/-- Another record with the same vertices records the same hyperedge. -/
theorem replace {other : NormalizedHyperedgeRecord V IW} (same : other.slots = record.slots) :
    Recorded R vertexCount (records.set index other) added := by
  refine ⟨recorded.vertices, ?_, ?_, ?_⟩
  · rw [List.map_set, same, ← recorded.hyperedges]
    have slots : (records.map NormalizedHyperedgeRecord.slots)[index]? = some record.slots := by
      rw [getElem?_map, read, Option.map_some]
    exact set_getElem? slots
  · rw [length_set]
    exact recorded.named
  · rw [length_set]
    exact recorded.inMemory

end Recorded

/-- Setting a weight by position keeps the vertices. -/
theorem slots_withParticipants {record : NormalizedHyperedgeRecord V IW}
    {role : HyperParticipantRole} {position : Nat} {vertex : V} {old : IW}
    (at_ : (record.participants role)[position]? = some (vertex, old)) (weight : IW) :
    (record.withParticipants ((record.participants role).set position (vertex, weight)) role).slots =
      record.slots := by
  have kept : (((record.participants role).set position (vertex, weight)).map fun participant =>
      toNat participant.1) = record.slotsOf role := by
    have slot : (record.slotsOf role)[position]? = some (toNat vertex) := by
      rw [NormalizedHyperedgeRecord.slotsOf, getElem?_map, at_, Option.map_some]
    rw [List.map_set]
    exact set_getElem? slot
  cases role with
  | source => exact congrArg (·, record.slotsOf .target) kept
  | target => exact congrArg (record.slotsOf .source, ·) kept

-- The weights of a builder and the assignments of its calls.

/-- A builder holds what was added, under the latest weights. -/
structure Weighed (builder : WeightedHypergraphBuilder V R O EW RW IW)
    (ledger : Ledger EW RW IW) : Prop where
  recorded : Recorded R builder.vertexCount builder.hyperedges ledger.added
  elements_length : builder.elementWeights.length = builder.vertexCount
  relations_length : builder.relationWeights.length = builder.hyperedges.length
  elements : Logged builder.elementWeights ledger.elements
  relations : Logged builder.relationWeights ledger.relations
  incidences : IncidencesLogged builder.hyperedges ledger.incidences

omit [LayoutIndex R] in
/-- The slot of a vertex is found exactly when the vertex is known. -/
theorem vertexIndexChecked_eq (vertexCount : Nat) (vertex : V) :
    (vertexIndexChecked vertexCount vertex : Except (HyperBuildError V R) Nat) =
      if toNat vertex < vertexCount then .ok (toNat vertex) else .error (.invalidVertex vertex) := by
  unfold vertexIndexChecked idToSlot
  simp only [toUsize_eq]
  split <;> rfl

omit [LayoutIndex V] in
/-- The slot of a hyperedge is found exactly when the hyperedge is known. -/
theorem hyperedgeIndexChecked_eq (hyperedgeCount : Nat) (hyperedge : R) :
    (hyperedgeIndexChecked hyperedgeCount hyperedge : Except (HyperBuildError V R) Nat) =
      if toNat hyperedge < hyperedgeCount then .ok (toNat hyperedge)
      else .error (.invalidHyperedge hyperedge) := by
  unfold hyperedgeIndexChecked idToSlot
  simp only [toUsize_eq]
  split <;> rfl

namespace Weighed

/--
How a call ends that leaves a builder with the weights of a ledger.

It panics only when memory holds no more hyperedges, and adds one at most.
-/
inductive Kept (builder : WeightedHypergraphBuilder V R O EW RW IW) (ledger : Ledger EW RW IW) :
    Fallible (HyperBuildError V R) (WeightedHypergraphBuilder V R O EW RW IW) → Prop where
  | panics (full : sliceBound hyperedgeRecordBytes ≤ builder.hyperedges.length) :
    Kept builder ledger (ExceptT.mk none)
  | fails (error : HyperBuildError V R) (kept : Weighed builder ledger) :
    Kept builder ledger (throw error)
  | returns (next : WeightedHypergraphBuilder V R O EW RW IW) (kept : Weighed next ledger)
    (grown : next.hyperedges.length ≤ builder.hyperedges.length + 1) :
    Kept builder ledger (pure next)

variable {builder : WeightedHypergraphBuilder V R O EW RW IW} {ledger : Ledger EW RW IW}
  (weighed : Weighed builder ledger)
include weighed

omit [LayoutIndex O] in
/-- Adding a vertex assigns its weight to it. -/
theorem addVertex (weight : EW) :
    Kept builder (ledger.apply (.add (.vertex weight) : WeightCall V R EW RW IW))
      (builder.add (.vertex weight)) := by
  have count := weighed.recorded.vertices
  unfold WeightedHypergraphBuilder.add WeightedHypergraphBuilder.addVertex Ledger.apply
  dsimp only
  -- The count tells whether the vertex was added, and so whether its weight is logged.
  cases outcome : (nextVertex builder.vertexCount : Except (HyperBuildError V R) _) with
  | error error =>
    have same := (weighed.recorded.vertex_error outcome :
      Recorded R _ _ (ledger.added.apply V R (.vertex weight : Addition V EW RW IW)))
    rw [if_neg (by rw [← count, ← same.vertices]; exact Nat.lt_irrefl _)]
    exact .fails error weighed
  | ok allocated =>
    obtain ⟨id, advanced⟩ := allocated
    have grown := (weighed.recorded.vertex_ok outcome :
      Recorded R _ _ (ledger.added.apply V R (.vertex weight : Addition V EW RW IW)))
    obtain ⟨_, _, rfl⟩ := nextVertex_eq_ok.mp outcome
    rw [if_pos (by rw [← count, ← grown.vertices]; exact Nat.lt_succ_self _)]
    have elements := weighed.elements.push weight
    rw [weighed.elements_length, count] at elements
    refine .returns _
      ⟨grown, ?_, weighed.relations_length, elements, weighed.relations, weighed.incidences⟩
      (Nat.le_succ _)
    rw [length_append, weighed.elements_length]
    rfl

omit [LayoutIndex O] in
/-- Adding a hyperedge assigns its weight and those of its participants. -/
theorem addHyperedge (sources targets : List (V × IW)) (weight : RW) :
    Kept builder
      (ledger.apply (.add (.hyperedge sources targets weight) : WeightCall V R EW RW IW))
      (builder.add (.hyperedge sources targets weight)) := by
  have count := weighed.recorded.length_eq
  unfold WeightedHypergraphBuilder.add WeightedHypergraphBuilder.addHyperedge Ledger.apply
  dsimp only
  -- The count tells whether the hyperedge was added, and so whether its weights are logged.
  cases outcome : (checkHyperedge builder.vertexCount builder.hyperedges.length
      (sources.map Prod.fst) (targets.map Prod.fst) : Except (HyperBuildError V R) R) with
  | error error =>
    have same := (weighed.recorded.hyperedge_error outcome :
      Recorded R _ _ (ledger.added.apply V R
        (.hyperedge sources targets weight : Addition V EW RW IW)))
    rw [if_neg (by rw [← count, ← same.length_eq]; exact Nat.lt_irrefl _)]
    exact .fails error weighed
  | ok id =>
    cases pushed : pushOrPanic hyperedgeRecordBytes builder.hyperedges ⟨sources, targets⟩ with
    | none => exact .panics (pushOrPanic_eq_none.mp pushed)
    | some hyperedges =>
      obtain ⟨room, rfl⟩ := pushOrPanic_eq_some.mp pushed
      have grown := (weighed.recorded.hyperedge_ok outcome room rfl :
        Recorded R _ (builder.hyperedges ++ [⟨sources, targets⟩]) (ledger.added.apply V R
          (.hyperedge sources targets weight : Addition V EW RW IW)))
      have length := grown.length_eq
      rw [length_append, List.length_singleton] at length
      rw [if_pos (by omega), ← count]
      have relations := weighed.relations.push weight
      rw [weighed.relations_length] at relations
      have nodup := grown.nodup_slotsOf (List.getElem?_concat_length)
      refine .returns _ ⟨grown, weighed.elements_length, ?_, weighed.elements, relations,
        weighed.incidences.push nodup⟩ (Nat.le_of_eq length_append)
      rw [length_append, length_append, weighed.relations_length]
      rfl

omit [LayoutIndex O] in
/-- Setting the weight of a known vertex assigns it. -/
theorem setElement (vertex : V) (weight : EW) :
    Kept builder (ledger.apply (.setElement vertex weight : WeightCall V R EW RW IW))
      (builder.setElementWeight vertex weight) := by
  unfold WeightedHypergraphBuilder.setElementWeight
  rw [Ledger.apply, vertexIndexChecked_eq, ← weighed.recorded.vertices]
  by_cases known : toNat vertex < builder.vertexCount
  · have inside := known
    rw [← weighed.elements_length] at inside
    rw [if_pos known, if_pos known]
    dsimp only [Fallible.ofResult_ok]
    rw [pure_bind, List.getElem?_eq_getElem inside]
    exact .returns _ { weighed with
      elements_length := (length_set).trans weighed.elements_length
      elements := weighed.elements.set _ _ } (Nat.le_succ _)
  · rw [if_neg known, if_neg known]
    exact .fails _ weighed

omit [LayoutIndex O] in
/-- Setting the weight of a known hyperedge assigns it. -/
theorem setRelation (hyperedge : R) (weight : RW) :
    Kept builder (ledger.apply (.setRelation hyperedge weight : WeightCall V R EW RW IW))
      (builder.setRelationWeight hyperedge weight) := by
  unfold WeightedHypergraphBuilder.setRelationWeight
  rw [Ledger.apply, hyperedgeIndexChecked_eq, ← weighed.recorded.length_eq]
  by_cases known : toNat hyperedge < builder.hyperedges.length
  · have inside := known
    rw [← weighed.relations_length] at inside
    rw [if_pos known, if_pos known]
    dsimp only [Fallible.ofResult_ok]
    rw [pure_bind, List.getElem?_eq_getElem inside]
    exact .returns _ { weighed with
      relations_length := (length_set).trans weighed.relations_length
      relations := weighed.relations.set _ _ } (Nat.le_succ _)
  · rw [if_neg known, if_neg known]
    exact .fails _ weighed

omit [LayoutIndex O] in
/-- Setting the weight at a position assigns it to the vertex that was given there. -/
theorem setIncidence (role : HyperParticipantRole) (hyperedge : R) (position : Nat) (weight : IW) :
    Kept builder (ledger.assign role (toNat hyperedge) position weight)
      (builder.setIncidenceWeight role hyperedge position weight) := by
  unfold WeightedHypergraphBuilder.setIncidenceWeight Ledger.assign
  rw [hyperedgeIndexChecked_eq]
  -- A position with a participant is one with a slot of the history.
  by_cases known : toNat hyperedge < builder.hyperedges.length
  · have read := List.getElem?_eq_getElem known
    rw [weighed.recorded.side_eq read role, NormalizedHyperedgeRecord.slotsOf, getElem?_map,
      if_pos known]
    dsimp only [Fallible.ofResult_ok]
    rw [pure_bind, read]
    rw [Fallible.orPanic_eq_pure.mpr rfl, pure_bind]
    cases at_ : (builder.hyperedges[toNat hyperedge].participants role)[position]? with
    | none => exact .fails _ weighed
    | some participant =>
      obtain ⟨vertex, old⟩ := participant
      have nodup := weighed.recorded.nodup_slotsOf read role
      exact .returns _ { weighed with
        recorded := weighed.recorded.replace read (slots_withParticipants at_ weight)
        relations_length := weighed.relations_length.trans (length_set).symm
        incidences := weighed.incidences.set read nodup at_ weight }
        (Nat.le_trans (Nat.le_of_eq length_set) (Nat.le_succ _))
  · rw [weighed.recorded.side_eq_nil (Nat.le_of_not_lt known), if_neg known]
    exact .fails _ weighed

end Weighed

variable {ledger : Ledger EW RW IW}

omit [LayoutIndex O] in
/-- Every call leaves the weights that it assigns, or panics for want of memory. -/
theorem Weighed.call {builder : WeightedHypergraphBuilder V R O EW RW IW}
    (weighed : Weighed builder ledger) (call : WeightCall V R EW RW IW) :
    Weighed.Kept builder (ledger.apply call) (builder.call call) := by
  cases call with
  | add addition =>
    cases addition with
    | vertex weight => exact weighed.addVertex weight
    | hyperedge sources targets weight => exact weighed.addHyperedge sources targets weight
  | setElement vertex weight => exact weighed.setElement vertex weight
  | setRelation hyperedge weight => exact weighed.setRelation hyperedge weight
  | setSource hyperedge position weight =>
    exact weighed.setIncidence .source hyperedge position weight
  | setTarget hyperedge position weight =>
    exact weighed.setIncidence .target hyperedge position weight

omit [LayoutIndex O] in
/-- Calls keep the weights that the ledger says. -/
theorem weighed_keeps :
    Fallible.Keeps
      (WeightedHypergraphBuilder.call : WeightedHypergraphBuilder V R O EW RW IW → _)
      Ledger.apply Weighed := by
  intro builder ledger call weighed
  have kept := weighed.call call
  generalize builder.call call = outcome at kept ⊢
  cases kept with
  | panics _ => trivial
  | fails _ kept => exact kept
  | returns _ kept _ => exact kept

variable {builder : WeightedHypergraphBuilder V R O EW RW IW}

omit [LayoutIndex O] in
/-- Calls no more than memory can hold do not panic. -/
theorem Weighed.runs
    {ledger : Ledger EW RW IW} (weighed : Weighed builder ledger)
    {calls : List (WeightCall V R EW RW IW)}
    (room : builder.hyperedges.length + calls.length ≤ sliceBound hyperedgeRecordBytes) :
    ∃ final, Fallible.runAll WeightedHypergraphBuilder.call calls builder = some final := by
  induction calls generalizing builder ledger with
  | nil => exact ⟨builder, rfl⟩
  | cons call rest ih =>
    rw [List.length_cons] at room
    have kept := weighed.call call
    rw [Fallible.runAll]
    generalize builder.call call = outcome at kept ⊢
    cases kept with
    | panics full => omega
    | fails error kept => exact ih kept (by omega)
    | returns next kept grown => exact ih kept (by omega)

-- Freezing.

omit [LayoutIndex R] [LayoutIndex O] in
/-- The weight at a vertex's position in flattened sides is that of the vertex on its side. -/
theorem weight_at_position (lists : List (List (V × IW))) {index vertex : Nat}
    (member : vertex ∈ (setsOf lists).getD index []) :
    ∃ participant ∈ lists.getD index [], toNat participant.1 = vertex ∧
      (lists.flatten.map Prod.snd)[positionOf (setsOf lists) index vertex]? =
        some participant.2 := by
  have inside := lt_of_mem_getD member
  rw [setsOf, length_map] at inside
  have located := getElem?_bucket inside
  have flat : Flattened (runningOffsets 0 lists) lists.flatten lists := ⟨rfl, rfl⟩
  have side : (setsOf lists).getD index [] =
      (lists.getD index []).map fun participant => toNat participant.1 := by
    rw [setsOf, List.getD_eq_getElem?_getD, getElem?_map, located, Option.map_some,
      Option.getD_some]
  have start : ((setsOf lists).take index).flatten.length = (lists.take index).flatten.length := by
    rw [setsOf, ← List.map_take, ← List.map_flatten, length_map]
  -- The vertex's place on its side is that of a participant.
  have place := List.getElem?_idxOf member
  rw [side, getElem?_map, Option.map_eq_some_iff, ← side] at place
  obtain ⟨participant, read, same⟩ := place
  have below := (List.getElem?_eq_some_iff.mp read).1
  refine ⟨participant, List.mem_of_getElem? read, same, ?_⟩
  rw [getElem?_map, positionOf, start, flat.getElem?_place located below, read, Option.map_some]

omit [LayoutIndex R] [LayoutIndex O] in
/-- A participant of a normalized hyperedge is one of the recorded hyperedge. -/
theorem WeightedHypergraphBuilder.mem_normalizedHyperedges {role : HyperParticipantRole} {index : Nat}
    {participant : V × IW}
    (member : participant ∈
      (builder.normalizedHyperedges.map fun record => record.participants role).getD index []) :
    ∃ record, builder.hyperedges[index]? = some record ∧
      participant ∈ record.participants role := by
  rw [List.getD_eq_getElem?_getD, getElem?_map, normalizedHyperedges,
    getElem?_map] at member
  cases read : builder.hyperedges[index]? with
  | none =>
    rw [read] at member
    cases member
  | some record =>
    rw [read] at member
    refine ⟨record, rfl, ?_⟩
    cases role with
    | source => exact (List.mergeSort_perm _ _).mem_iff.mp member
    | target => exact (List.mergeSort_perm _ _).mem_iff.mp member

omit [LayoutIndex O] in
/-- In the order of incidences, a vertex's weight is the latest it was assigned on its side. -/
theorem Weighed.latest (weighed : Weighed builder ledger) {role : HyperParticipantRole}
    {hyperedge vertex : Nat}
    (member : vertex ∈ (roleSets builder.normalizedHyperedges role).getD hyperedge []) :
    ∃ weight, ((builder.normalizedHyperedges.map fun record =>
        record.participants role).flatten.map Prod.snd)[
          positionOf (roleSets builder.normalizedHyperedges role) hyperedge vertex]? = some weight ∧
      ledger.incidences.lookup (hyperedge, role, vertex) = some weight := by
  obtain ⟨participant, listed, rfl, read⟩ := weight_at_position _ member
  obtain ⟨record, recorded, given⟩ := WeightedHypergraphBuilder.mem_normalizedHyperedges listed
  exact ⟨participant.2, read, weighed.incidences hyperedge record recorded role participant given⟩

/-- A frozen hypergraph stores the weights that its builder was left with. -/
theorem Weighed.storedBy (weighed : Weighed builder ledger)
    {graph : FrozenWeightedHypergraph V R O EW RW IW} (frozen : builder.freeze = pure graph) :
    ledger.StoredBy graph := by
  obtain ⟨built, validated, elementWeights, relationWeights⟩ :=
    WeightedHypergraphBuilder.freeze_eq_pure.mp frozen
  obtain ⟨vertices, headsFlat, tailsFlat, incidenceWeights⟩ := buildTopology_blocks built
  obtain ⟨counts, accepted⟩ := validateFrozenTopology_eq_pure.mp validated
  obtain ⟨heads, tails, outgoing, incoming, laid, _⟩ := validateSections_eq_pure.mp accepted
  obtain rfl := laid.outgoingRole.edges.unique headsFlat
  obtain rfl := laid.incomingRole.edges.unique tailsFlat
  have edges : counts.hyperedgeCount = builder.hyperedges.length := by
    rw [← laid.outgoingRole.sets_length, roleSets, setsOf, length_map, length_map,
      WeightedHypergraphBuilder.normalizedHyperedges, length_map]
  constructor
  · intro vertex valid
    change toNat vertex < graph.topology.vertexCount at valid
    rw [vertices, ← weighed.elements_length] at valid
    have read := List.getElem?_eq_getElem valid
    refine ⟨_, ?_, weighed.elements _ _ read⟩
    rw [FrozenWeightedHypergraph.elementWeight, slotOrMax_eq, elementWeights, read]
  · intro hyperedge valid
    change toNat hyperedge < graph.topology.headOffsets.length - 1 at valid
    have length := laid.counted.headOffsets
    change graph.topology.headOffsets.length = _ at length
    rw [length, Nat.add_sub_cancel, edges, ← weighed.relations_length] at valid
    have read := List.getElem?_eq_getElem valid
    refine ⟨_, ?_, weighed.relations _ _ read⟩
    rw [FrozenWeightedHypergraph.relationWeight, slotOrMax_eq, relationWeights, read]
  · intro incidence valid
    have traits := traits_eq laid (length_outgoingOffsets built)
    rw [asView_eq laid.counted] at traits
    rw [traits] at valid ⊢
    change toNat incidence < counts.totalIncidences at valid
    let view : BcsrHypergraph V R O := ⟨counts, graph.topology.sections⟩
    have laid : LaidOut view.sections view.counts _ _ _ _ := laid
    -- The hyperedge has an ID, because the builder gave it one.
    obtain ⟨owner, owned, located, range⟩ :=
      BcsrHypergraph.incidenceRelation_spec laid valid
    have named : owner < LayoutIndex.bound R := by
      have := weighed.recorded.named
      change owner < counts.hyperedgeCount at owned
      omega
    rw [usizeToIndexValidated_eq named] at located
    obtain ⟨vertex, element⟩ : ∃ vertex, view.incidenceElement incidence = some vertex :=
      ⟨_, BcsrHypergraph.incidenceElement_eq laid valid⟩
    obtain ⟨role, side⟩ : ∃ role, view.incidenceRole incidence = some role :=
      ⟨_, BcsrHypergraph.incidenceRole_eq laid⟩
    have heads : (roleSets builder.normalizedHyperedges .source).flatten.length =
        ((builder.normalizedHyperedges.map (·.sources)).flatten.map Prod.snd).length := by
      rw [roleSets, setsOf, ← List.map_flatten, length_map, length_map]
      rfl
    cases role with
    | head =>
      obtain ⟨member, number⟩ := (BcsrHypergraph.head_incidence_iff laid valid).mp
        ⟨located, element, side⟩
      obtain ⟨weight, read, latest⟩ := weighed.latest member
      refine ⟨_, _, _, weight, located, element, congrArg (Option.map BcsrRole.participantRole) side,
        ?_, latest⟩
      have below := (List.getElem?_eq_some_iff.mp read).1
      rw [FrozenWeightedHypergraph.incidenceWeight, slotOrMax_eq, incidenceWeights, number]
      exact (List.getElem?_append_left below).trans read
    | tail =>
      obtain ⟨member, number⟩ := (BcsrHypergraph.tail_incidence_iff laid valid).mp
        ⟨located, element, side⟩
      obtain ⟨weight, read, latest⟩ := weighed.latest member
      refine ⟨_, _, _, weight, located, element, congrArg (Option.map BcsrRole.participantRole) side,
        ?_, latest⟩
      have pOutgoing := BcsrHypergraph.pOutgoing_eq laid
      rw [← @length_map _ _ _ toNat, laid.outgoingRole.edges.values, heads] at pOutgoing
      rw [FrozenWeightedHypergraph.incidenceWeight, slotOrMax_eq, incidenceWeights, number,
        List.getElem?_append_right (pOutgoing ▸ Nat.le_add_right _ _), ← pOutgoing,
        Nat.add_sub_cancel_left]
      exact read

omit [LayoutIndex O] in
/-- A new builder holds nothing, under no weights. -/
theorem weighed_new :
    Weighed (.new : WeightedHypergraphBuilder V R O EW RW IW) .empty where
  recorded := recorded_empty R
  elements_length := rfl
  relations_length := rfl
  elements _ _ read := nomatch read
  relations _ _ read := nomatch read
  incidences _ _ read := nomatch read

/-- After every sequence of calls, a frozen hypergraph stores the latest weights. -/
theorem weights_follow_participants {calls : List (WeightCall V R EW RW IW)}
    {builder : WeightedHypergraphBuilder V R O EW RW IW}
    {graph : FrozenWeightedHypergraph V R O EW RW IW}
    (ran : Fallible.runAll WeightedHypergraphBuilder.call calls .new = some builder)
    (frozen : builder.freeze = pure graph) : (Ledger.all calls).StoredBy graph :=
  (weighed_keeps.runAll weighed_new ran : Weighed builder (Ledger.all calls)).storedBy frozen

end

/-- Two participants given in descending order, weights set again, and calls that are refused. -/
def someWeightCalls : List (WeightCall UInt16 UInt16 Nat Nat Nat) :=
  [.add (.vertex 10), .add (.vertex 20), .add (.hyperedge [(1, 1), (0, 2)] [(1, 3)] 30),
    .add (.hyperedge [(5, 1)] [] 31), .setSource 0 0 4, .setSource 0 2 5, .setTarget 0 0 6,
    .setTarget 1 0 7, .setElement 1 21, .setElement 2 22, .setRelation 0 32]

/-- The weight set for the first source stays with vertex one, which is sorted behind vertex zero. -/
theorem weights_follow_some_participants :
    ∃ (builder : WeightedHypergraphBuilder UInt16 UInt16 UInt16 Nat Nat Nat)
      (graph : FrozenWeightedHypergraph UInt16 UInt16 UInt16 Nat Nat Nat),
      Fallible.runAll WeightedHypergraphBuilder.call someWeightCalls .new = some builder ∧
        builder.freeze = pure graph ∧ (Ledger.all someWeightCalls).StoredBy graph ∧
        (Ledger.all someWeightCalls).incidences.lookup (0, .source, 1) = some 4 := by
  have started := @weighed_new UInt16 UInt16 UInt16 Nat Nat Nat _ _
  obtain ⟨builder, ran⟩ := @Weighed.runs _ _ _ _ _ _ _ _ _ _ started someWeightCalls (by decide)
  have weighed : Weighed builder (Ledger.all someWeightCalls) := weighed_keeps.runAll started ran
  have fits : (Ledger.all someWeightCalls).added.participantCount < LayoutIndex.bound UInt16 := by
    decide
  obtain ⟨graph, frozen⟩ := (WeightedHypergraphBuilder.freezesAs weighed.recorded fits).returns
    (by decide)
  exact ⟨builder, graph, ran, frozen, weights_follow_participants ran frozen, by decide⟩

end Oxgraph.Bcsr
