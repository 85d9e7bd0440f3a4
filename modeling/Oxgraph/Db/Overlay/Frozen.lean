import Oxgraph.Lib.Layer
import Oxgraph.Db.Catalog
import Oxgraph.Db.Index

/-! The frozen, published overlay and the owned base realization under it. -/

namespace Oxgraph

/-- Masked entries of one record family: a record adds or overrides, `none` is a tombstone. -/
abbrev Delta (Record : Type) := BTreeMap UInt64 (Option Record)

/-- One subject's property delta: a set value, or a removal tombstone. -/
abbrev SubjectDelta := BTreeMap PropertyKeyId (Option PropertyValue)

/-- The frozen, published delta. -/
structure Overlay where
  -- Record deltas: id to add or override, or tombstone.
  elements : Delta ElementRecord
  relations : Delta RelationRecord
  incidences : Delta IncidenceRecord
  -- Property delta: subject to key to set value, or remove.
  properties : BTreeMap PropertySubject SubjectDelta
  -- Catalog additions folded into this overlay.
  catalog : Catalog
  -- The nine id allocators for this overlay.
  next : NextIds
  -- Incremental index deltas.
  index : OverlayIndex

/-- The empty overlay for a freshly opened base. -/
def Overlay.empty (next : NextIds) (catalog : Catalog) : Overlay :=
  { elements := ∅, relations := ∅, incidences := ∅, properties := ∅, catalog, next,
    index := .new }

/-- One base generation's decoded record maps, without the index. -/
structure DecodedRecords where
  elements : BTreeMap ElementId ElementRecord
  relations : BTreeMap RelationId RelationRecord
  incidences : BTreeMap IncidenceId IncidenceRecord
  properties : BTreeMap PropertySubject (BTreeMap PropertyKeyId PropertyValue)

/-- Owned realization of one base generation's records, with its derived index postings. -/
structure BaseRecords extends DecodedRecords where
  index : BaseIndex

namespace BaseRecords

/-- The records of an empty base. -/
def empty : BaseRecords := ⟨⟨∅, ∅, ∅, ∅⟩, .owned .empty⟩

/-- The base element record of an id. -/
def element (base : BaseRecords) (id : ElementId) : Option ElementRecord := base.elements[id]?

/-- The base relation record of an id. -/
def relation (base : BaseRecords) (id : RelationId) : Option RelationRecord := base.relations[id]?

/-- The base incidence record of an id. -/
def incidence (base : BaseRecords) (id : IncidenceId) : Option IncidenceRecord :=
  base.incidences[id]?

/-- The base property value of a subject and key. -/
def property (base : BaseRecords) (subject : PropertySubject) (key : PropertyKeyId) :
    Option PropertyValue :=
  nestedGet base.properties subject key

end BaseRecords

/-- The immutable unit a read transaction pins: one base generation and the overlay over it. -/
structure Snapshot where
  -- Checkpoint generation of the pinned base.
  generation : UInt64
  -- Committed transaction sequence of this snapshot.
  lsn : CommitSeq
  -- The frozen overlay published over the base.
  overlay : Overlay
  -- Owned realization of the base records the merge reads.
  baseRecords : BaseRecords

end Oxgraph
