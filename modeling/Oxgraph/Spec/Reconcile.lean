import Oxgraph.Db.Database.Commit
import Oxgraph.Spec.Coherent

/-! What pruning removes from a store, and the reconcile programs with the state they ask for. -/

namespace Oxgraph

namespace Contents

open Classical in
/-- The contents without some subjects and their properties. -/
noncomputable def without (contents : Contents) (gone : PropertySubject → Prop) : Contents where
  element id := if gone (.element id) then none else contents.element id
  relation id := if gone (.relation id) then none else contents.relation id
  incidence id := if gone (.incidence id) then none else contents.incidence id
  property subject key := if gone subject then none else contents.property subject key

/-- What goes when some subjects are pruned: themselves, and the incidences that touch them. -/
def Falls (contents : Contents) (pruned : PropertySubject → Prop) : PropertySubject → Prop
  | .incidence id => pruned (.incidence id) ∨ ∃ record, contents.incidence id = some record ∧
      (pruned (.element record.element) ∨ pruned (.relation record.relation))
  | subject => pruned subject

/-- Two stores agree on the record of a subject and on each of its properties. -/
def SameAt (left right : Contents) (subject : PropertySubject) : Prop :=
  (match subject with
    | .element id => left.element id = right.element id
    | .relation id => left.relation id = right.relation id
    | .incidence id => left.incidence id = right.incidence id) ∧
  ∀ key, left.property subject key = right.property subject key

/-- The subject carries a value under the key that is not kept. -/
def Stale (contents : Contents) (key : PropertyKeyId) (keep : List PropertyValue)
    (subject : PropertySubject) : Prop :=
  ∃ value, contents.property subject key = some value ∧ value ∉ keep

variable {gone : PropertySubject → Prop} {subject : PropertySubject} {contents : Contents}

/-- What is not gone is as it was. -/
theorem sameAt_without (left : ¬ gone subject) :
    (contents.without gone).SameAt contents subject := by
  constructor
  · cases subject <;> exact if_neg left
  · intro key
    exact if_neg left

/-- What is gone is not present. -/
theorem not_has_without (falls : gone subject) : ¬ (contents.without gone).Has subject := by
  unfold without
  cases subject <;> simp [Has, falls]

/-- Removing subjects twice removes all of them. -/
theorem without_without (contents : Contents) (first second : PropertySubject → Prop) :
    (contents.without first).without second =
      contents.without fun subject => first subject ∨ second subject := by
  unfold without
  congr 1 <;> funext <;> grind

/-- An incidence is left when it was there and is not gone. -/
theorem without_incidence {id : IncidenceId} {record : IncidenceRecord} :
    (contents.without gone).incidence id = some record ↔
      ¬ gone (.incidence id) ∧ contents.incidence id = some record := by
  unfold without
  simp

/-- A property is left when it was there and its subject is not gone. -/
theorem without_property {key : PropertyKeyId} {value : PropertyValue} :
    (contents.without gone).property subject key = some value ↔
      ¬ gone subject ∧ contents.property subject key = some value := by
  unfold without
  simp

/-- A subject stays present unless it is gone. -/
theorem has_without (left : ¬ gone subject) (present : contents.Has subject) :
    (contents.without gone).Has subject := by
  have same := (sameAt_without left : (contents.without gone).SameAt contents subject).1
  cases subject <;> simp only [Has] at present ⊢ <;> rwa [same]

/-- A pruned subject goes. -/
theorem falls_of_pruned {pruned : PropertySubject → Prop} (member : pruned subject) :
    contents.Falls pruned subject := by
  cases subject with
  | incidence id => exact .inl member
  | element id | relation id => exact member

/-- Pruning one subject and then the rest of a list prunes the list. -/
theorem falls_cons (contents : Contents) (head : PropertySubject) (rest : List PropertySubject)
    (subject : PropertySubject) :
    contents.Falls (· = head) subject ∨
        (contents.without (contents.Falls (· = head))).Falls (· ∈ rest) subject ↔
      contents.Falls (· ∈ head :: rest) subject := by
  cases subject with
  | element id | relation id => simp [Falls]
  | incidence id =>
    constructor
    · rintro ((same | ⟨record, found, touched⟩) | later | ⟨record, found, touched⟩)
      · exact .inl (by simp [same])
      · exact .inr ⟨record, found, by simpa using touched.imp Or.inl Or.inl⟩
      · exact .inl (by simp [later])
      · -- What the first pruning left is an incidence of the original contents.
        obtain ⟨_, found⟩ := without_incidence.mp found
        exact .inr ⟨record, found, touched.imp (List.mem_cons_of_mem head)
          (List.mem_cons_of_mem head)⟩
    · intro falls
      by_cases first : contents.Falls (· = head) (.incidence id)
      · exact .inl first
      -- Not gone with the head, the incidence is still there for the rest to take.
      refine .inr ?_
      rcases falls with listed | ⟨record, found, touched⟩
      · rcases List.mem_cons.mp listed with same | later
        · exact absurd (.inl same) first
        · exact .inl later
      · refine .inr ⟨record, without_incidence.mpr ⟨first, found⟩, ?_⟩
        rcases touched with listed | listed
        · rcases List.mem_cons.mp listed with same | later
          · exact absurd (.inr ⟨record, found, .inl same⟩) first
          · exact .inl later
        · rcases List.mem_cons.mp listed with same | later
          · exact absurd (.inr ⟨record, found, .inr same⟩) first
          · exact .inr later

end Contents

end Oxgraph

-- Reconcile programs.

namespace Oxgraph

/-- The index is a property-equality index over the key. -/
def Catalog.Covers (catalog : Catalog) (index : IndexId) (key : PropertyKeyId) : Prop :=
  ∃ entry, catalog.index index = some entry ∧ entry.definition = .propertyEquality key

/-- An upsert over an identity value. -/
inductive Upsert where
  | element (index : IndexId) (value : PropertyValue)
  | relation (index : IndexId) (value : PropertyValue) (relationType : RelationTypeId)
    (endpoints : List (ElementId × RoleId))

namespace Upsert

/-- The index whose key carries the identity. -/
def index : Upsert → IndexId
  | .element index _ | .relation index _ _ _ => index

/-- The identity value. -/
def value : Upsert → PropertyValue
  | .element _ value | .relation _ value _ _ => value

/-- The subject of an id the call answers with. -/
def subject : Upsert → UInt64 → PropertySubject
  | .element .. => .element
  | .relation .. => .relation

/-- Runs the call, answering with the subject it found or minted. -/
def run : Upsert → Mutation DbError Writer PropertySubject
  | .element index value => do
    let id ← Writer.upsertElement index value
    return .element id
  | .relation index value relationType endpoints => do
    let id ← Writer.upsertRelation index value relationType endpoints
    return .relation id

/-- The subject carries the identity value, and is the least of its kind that does. -/
def Answered (call : Upsert) (contents : Contents) (catalog : Catalog)
    (subject : PropertySubject) : Prop :=
  ∃ key id, catalog.Covers call.index key ∧ subject = call.subject id ∧
    contents.property subject key = some call.value ∧
    ∀ other, contents.property (call.subject other) key = some call.value → id ≤ other

end Upsert

/-- A property to set on a subject. -/
structure PropertySet where
  subject : PropertySubject
  key : PropertyKeyId
  value : PropertyValue

/-- The identity values to keep under an index. -/
structure Retain where
  index : IndexId
  keep : List PropertyValue

/--
What a reconcile program does with its handles: upserts, then sets, then retains.

A call may depend on the subjects that the upserts before it answered with.
-/
inductive Reconcile where
  | upsert (call : Upsert) (next : PropertySubject → Reconcile)
  | settle (sets : List PropertySet) (retains : List Retain)

namespace Reconcile

/-- Runs a program, answering with the subjects of its upserts in order. -/
def run : Reconcile → Mutation DbError Writer (List PropertySubject)
  | .upsert call next => do
    let subject ← call.run
    let rest ← (next subject).run
    return subject :: rest
  | .settle sets retains => do
    sets.forM fun set => Writer.setProperty set.subject set.key set.value
    retains.forM fun retain => Writer.retain retain.index retain.keep
    return []

-- What a program calls when its upserts answer with the given subjects.

/-- The upserts it makes. -/
def calls : Reconcile → List PropertySubject → List Upsert
  | .upsert call next, subject :: rest => call :: (next subject).calls rest
  | _, _ => []

/-- The properties it sets. -/
def sets : Reconcile → List PropertySubject → List PropertySet
  | .upsert _ next, subject :: rest => (next subject).sets rest
  | .upsert .., [] => []
  | .settle sets _, _ => sets

/-- The values it keeps. -/
def retains : Reconcile → List PropertySubject → List Retain
  | .upsert _ next, subject :: rest => (next subject).retains rest
  | .upsert .., [] => []
  | .settle _ retains, _ => retains

/-- Each slot is set at most once, none under an identity key, and every identity is kept. -/
structure WellFormed (program : Reconcile) (subjects : List PropertySubject) (catalog : Catalog) :
    Prop where
  once : ((program.sets subjects).map fun set => (set.subject, set.key)).Nodup
  apart : ∀ set ∈ program.sets subjects, ∀ call ∈ program.calls subjects,
    ¬ catalog.Covers call.index set.key
  keeps : ∀ retain ∈ program.retains subjects, ∀ call ∈ program.calls subjects, ∀ key,
    catalog.Covers call.index key → catalog.Covers retain.index key → call.value ∈ retain.keep

/-- Every subject it upserts or sets is present. -/
def Present (program : Reconcile) (subjects : List PropertySubject) (contents : Contents) : Prop :=
  (∀ subject ∈ subjects, contents.Has subject) ∧
    ∀ set ∈ program.sets subjects, contents.Has set.subject

/-- The state the program asks for: identities answered, properties set, and nothing else kept. -/
def Holds (contents : Contents) (catalog : Catalog) : Reconcile → List PropertySubject → Prop
  | .upsert call next, subject :: rest =>
    call.Answered contents catalog subject ∧ (next subject).Holds contents catalog rest
  | .upsert .., [] => False
  | .settle sets retains, subjects => subjects = [] ∧
    (∀ set ∈ sets, contents.property set.subject set.key = some set.value) ∧
    ∀ retain ∈ retains, ∃ key, catalog.Covers retain.index key ∧
      ∀ subject, ¬ contents.Stale key retain.keep subject

end Reconcile

/-- A reconcile program: a schema to apply, and what to do with the handles it resolves to. -/
structure ReconcileProgram where
  schema : Schema
  body : Bound → Reconcile

/-- Runs a program, answering with its handles and the subjects of its upserts. -/
def ReconcileProgram.run (program : ReconcileProgram) :
    Mutation DbError Writer (Bound × List PropertySubject) := do
  let bound ← Writer.applySchema program.schema
  let subjects ← (program.body bound).run
  return (bound, subjects)

/-- One contents is another with some subjects gone, their properties with them. -/
structure Contents.Shrinks (after before : Contents) : Prop where
  has : ∀ {subject}, after.Has subject → before.Has subject
  same : ∀ {subject}, after.Has subject → ∀ key,
    after.property subject key = before.property subject key
  property : ∀ {subject key value}, after.property subject key = some value →
    before.property subject key = some value

/-- A handle shows the same records, properties and catalog as another. -/
structure Db.Agrees (left right : Db) : Prop where
  contents : left.current.view.contents = right.current.view.contents
  catalog : left.current.view.catalog = right.current.view.catalog

/--
Run again from where it got to, a well formed program that commits returns the same and is empty.

The second run appends nothing to the log and publishes nothing; it burns a transaction id.
-/
def ReconcileProgram.Reruns [Crc32c] (program : ReconcileProgram) (database : Db) : Prop :=
  ∀ bound subjects outcome reached,
    database.write program.run = (.ok ((bound, subjects), outcome), reached) →
    (program.body bound).WellFormed subjects reached.current.view.catalog →
    ∃ transaction, reached.write program.run =
      (.ok ((bound, subjects), .empty), { reached with lastTransactionId := transaction })

end Oxgraph
