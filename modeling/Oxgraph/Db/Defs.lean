import Oxgraph.Lib.Words
import Oxgraph.Db.Catalog

/-! The codec of projection and index definition bodies, as runs of 64-bit words. -/

namespace Oxgraph

-- Definition-body discriminants of the two projections and the six indexes.
def defProjectionGraph : UInt32 := 0
def defProjectionHyper : UInt32 := 1
def defIndexLabel : UInt32 := 0
def defIndexRelationType : UInt32 := 1
def defIndexPropertyEquality : UInt32 := 2
def defIndexPropertyRange : UInt32 := 3
def defIndexCompositeEquality : UInt32 := 4
def defIndexProjection : UInt32 := 5

/-- A length-prefixed id set in a definition-body word run. -/
def idSetWords (ids : BTreeSet UInt64) : List UInt64 :=
  .ofNat ids.toList.length :: ids.toList

/-- Reads a length-prefixed id set at a cursor, with the cursor past it; a failure says why. -/
def readIdSet (words : List UInt64) (cursor : Nat) : Except String (List UInt64 × Nat) :=
  match words[cursor]? with
  | none => .error "def missing id-set length"
  | some count =>
    match checkedAdd (cursor + 1) count.toNat with
    | none => .error "def id-set overflow"
    | some stop =>
      match sliceOf words (cursor + 1) stop with
      | none => .error "def id-set out of bounds"
      | some ids => .ok (ids, stop)

/-- Encodes a projection definition body, with the discriminant both persistence paths record. -/
def encodeProjectionBody : ProjectionDefinition → UInt32 × List UInt64
  | .graph definition =>
    (defProjectionGraph,
      definition.sourceRole :: definition.targetRole :: idSetWords definition.relationTypes)
  | .hypergraph definition =>
    (defProjectionHyper,
      idSetWords definition.sourceRoles ++ idSetWords definition.targetRoles ++
        idSetWords definition.relationTypes)

/-- Encodes an index definition body, with the discriminant both persistence paths record. -/
def encodeIndexBody : IndexDefinition → UInt32 × List UInt64
  | .label label => (defIndexLabel, [label])
  | .relationType relationType => (defIndexRelationType, [relationType])
  | .propertyEquality key => (defIndexPropertyEquality, [key])
  | .propertyRange key => (defIndexPropertyRange, [key])
  | .compositeEquality keys => (defIndexCompositeEquality, keys)
  | .projection projection => (defIndexProjection, [projection])

/-- Decodes a projection definition from its discriminant, name, and body words. -/
def decodeProjectionBody (discriminant : UInt32) (name : String) (words : List UInt64) :
    Except String ProjectionDefinition :=
  if discriminant = defProjectionGraph then
    match words[0]? with
    | none => .error "graph def missing source role"
    | some sourceRole =>
      match words[1]? with
      | none => .error "graph def missing target role"
      | some targetRole =>
        match readIdSet words 2 with
        | .error reason => .error reason
        | .ok (relationTypes, _) =>
          .ok (.graph { name, relationTypes := collectSet relationTypes, sourceRole, targetRole })
  else if discriminant = defProjectionHyper then
    match readIdSet words 0 with
    | .error reason => .error reason
    | .ok (sourceRoles, cursor) =>
      match readIdSet words cursor with
      | .error reason => .error reason
      | .ok (targetRoles, cursor) =>
        match readIdSet words cursor with
        | .error reason => .error reason
        | .ok (relationTypes, _) =>
          .ok (.hypergraph
            { name, relationTypes := collectSet relationTypes,
              sourceRoles := collectSet sourceRoles, targetRoles := collectSet targetRoles })
  else .error "unknown projection definition kind"

/-- Decodes an index definition from its discriminant and body words. -/
def decodeIndexBody (discriminant : UInt32) (words : List UInt64) :
    Except String IndexDefinition :=
  let first : Except String UInt64 :=
    match words[0]? with
    | none => .error "index def missing id"
    | some word => .ok word
  if discriminant = defIndexLabel then first.map .label
  else if discriminant = defIndexRelationType then first.map .relationType
  else if discriminant = defIndexPropertyEquality then first.map .propertyEquality
  else if discriminant = defIndexPropertyRange then first.map .propertyRange
  else if discriminant = defIndexCompositeEquality then .ok (.compositeEquality words)
  else if discriminant = defIndexProjection then first.map .projection
  else .error "unknown index definition kind"

/-- A length-prefixed set reads back from inside a word run. -/
theorem readIdSet_idSetWords (before rest : List UInt64) (ids : BTreeSet UInt64)
    (fits : before.length + 1 + ids.toList.length < usizeBound) :
    readIdSet (before ++ (idSetWords ids ++ rest)) before.length =
      .ok (ids.toList, before.length + 1 + ids.toList.length) := by
  have count : (before ++ (idSetWords ids ++ rest))[before.length]? =
      some (.ofNat ids.toList.length) := by
    simp [idSetWords]
  have small : (UInt64.ofNat ids.toList.length).toNat = ids.toList.length :=
    UInt64.toNat_ofNat_of_lt' (by unfold usizeBound at fits; simp only [UInt64.size]; omega)
  have slice : sliceOf (before ++ (idSetWords ids ++ rest)) (before.length + 1)
      (before.length + 1 + ids.toList.length) = some ids.toList := by
    have middle := sliceOf_middle (before ++ [.ofNat ids.toList.length]) ids.toList rest
    simpa [idSetWords] using middle
  rw [readIdSet]
  simp only [count, small, checkedAdd, if_pos fits, slice]

/-- A set of ids in a run has fewer members than the run has words. -/
theorem length_idSetWords (ids : BTreeSet UInt64) :
    (idSetWords ids).length = ids.toList.length + 1 := rfl

/-- Decoding an encoded projection body of a representable length gives the definition back. -/
theorem decodeProjectionBody_encode (definition : ProjectionDefinition)
    (fits : (encodeProjectionBody definition).2.length < usizeBound) :
    decodeProjectionBody (encodeProjectionBody definition).1 definition.name
      (encodeProjectionBody definition).2 = .ok definition := by
  cases definition with
  | graph definition =>
    simp only [encodeProjectionBody, List.length_cons, length_idSetWords] at fits
    have types := readIdSet_idSetWords [definition.sourceRole, definition.targetRole] []
      definition.relationTypes (by simp only [List.length_cons, List.length_nil]; omega)
    simp only [List.append_nil, List.cons_append, List.nil_append, List.length_cons,
      List.length_nil, Nat.zero_add, Nat.reduceAdd] at types
    simp [encodeProjectionBody, decodeProjectionBody, types, collectSet_toList,
      ProjectionDefinition.name]
  | hypergraph definition =>
    simp only [encodeProjectionBody, List.length_append, length_idSetWords] at fits
    -- The three sets follow one another, each read starting where the last one stopped.
    have sources := readIdSet_idSetWords []
      (idSetWords definition.targetRoles ++ idSetWords definition.relationTypes)
      definition.sourceRoles (by simp only [List.length_nil]; omega)
    have targets := readIdSet_idSetWords (idSetWords definition.sourceRoles)
      (idSetWords definition.relationTypes) definition.targetRoles
      (by simp only [length_idSetWords]; omega)
    have types := readIdSet_idSetWords
      (idSetWords definition.sourceRoles ++ idSetWords definition.targetRoles) []
      definition.relationTypes (by simp only [List.length_append, length_idSetWords]; omega)
    simp only [List.nil_append, List.length_nil, Nat.zero_add] at sources
    simp only [length_idSetWords] at targets
    simp only [List.length_append, length_idSetWords, List.append_nil, List.append_assoc] at types
    have start : definition.sourceRoles.toList.length + 1 =
        1 + definition.sourceRoles.toList.length := Nat.add_comm _ _
    have next : definition.sourceRoles.toList.length + 1 +
        (definition.targetRoles.toList.length + 1) =
        1 + definition.sourceRoles.toList.length + 1 + definition.targetRoles.toList.length := by
      omega
    rw [start] at targets
    rw [next] at types
    have other : defProjectionHyper ≠ defProjectionGraph := by decide
    simp only [decodeProjectionBody, encodeProjectionBody, other, if_false, if_true,
      List.append_assoc, sources, targets, types, collectSet_toList, ProjectionDefinition.name]

/-- Decoding an encoded index body gives the definition back. -/
theorem decodeIndexBody_encode (definition : IndexDefinition) :
    decodeIndexBody (encodeIndexBody definition).1 (encodeIndexBody definition).2 =
      .ok definition := by
  cases definition <;> rfl

end Oxgraph
