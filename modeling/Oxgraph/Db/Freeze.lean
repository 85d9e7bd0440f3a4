import Oxgraph.Snapshot.Container
import Oxgraph.Db.Wal
import Oxgraph.Db.Defs
import Oxgraph.Db.Overlay.Merge

/-! The sections of a frozen base, and the catalog decoded out of them. -/

namespace Oxgraph

open Container (SectionViewError)

/-- Reads a UTF-8 slice out of a string table. -/
def readStr (table : Bytes) (offset len : UInt32) : Except DbError String :=
  match checkedAdd offset.toNat len.toNat with
  | none => .error (.invalidStore "string slice overflow")
  | some stop =>
    match sliceOf table offset.toNat stop with
    | none => .error (.invalidStore "string slice out of bounds")
    | some bytes =>
      match fromUtf8 bytes with
      | none => .error (.invalidStore "non-UTF-8 string in store")
      | some string => .ok string

-- The bind funnels, which verify a section's checksum as they borrow it.

section Sections

variable [Crc32c]

/-- Reports a section view failure as an invalid store. -/
def bound {T : Type} (result : Except SectionViewError T) : Except StorageError T :=
  result.mapError fun error => .invalidStore error.display

/-- Borrows a typed record array from a section; an absent section is empty. -/
def typedRecords (T : Type) [FixedLayout T] (snapshot : Container.Snapshot) (kind : UInt32) :
    Except StorageError (List T) :=
  match snapshot.sectionOf kind with
  | none => .ok []
  | some found => do
    bound (found.verify checksumAppend)
    bound (found.tryAsSlice T)

/-- Borrows a raw byte blob from a section; an absent section is empty. -/
def rawBlob (snapshot : Container.Snapshot) (kind : UInt32) : Except StorageError Bytes :=
  match snapshot.sectionOf kind with
  | none => .ok []
  | some found => do
    bound (found.verify checksumAppend)
    return found.payload

/-- Borrows a typed record array, as a database result. -/
def typedRecordsDb (T : Type) [FixedLayout T] (snapshot : Container.Snapshot) (kind : UInt32) :
    Except DbError (List T) :=
  (typedRecords T snapshot kind).mapError .storage

/-- Registers a decoded entry in the catalog. -/
def registered (result : Except CatalogError Catalog) : Except DbError Catalog :=
  result.mapError .catalog

/-- Decodes entries that have only a name, inserting each. -/
def decodeNamed (table : Bytes) (insert : Catalog → UInt64 → String → Except CatalogError Catalog)
    (catalog : Catalog) (records : List NamedWire) : Except DbError Catalog :=
  records.foldlM (fun catalog record => do
    let name ← readStr table record.nameOff record.nameLen
    registered (insert catalog record.id name)) catalog

/-- Decodes one property key, inserting it. -/
def decodePropertyKey (table : Bytes) (catalog : Catalog) (record : PropertyKeyWire) :
    Except DbError Catalog := do
  let name ← readStr table record.nameOff record.nameLen
  match propertyFamilyFromTag record.family with
  | none => .error (.invalidStore "unknown property family tag")
  | some family =>
    match propertyTypeFromTag record.valueType with
    | none => .error (.invalidStore "unknown property type tag")
    | some valueType =>
      registered (catalog.insertPropertyKey { id := record.id, name, family, valueType })

/-- Borrows a definition body out of the shared run. -/
def defBody (record : DefWire) (defs : List UInt64) : Except DbError (List UInt64) :=
  match checkedAdd record.payloadOff.toNat record.payloadLen.toNat with
  | none => .error (.invalidStore "definition body overflow")
  | some stop =>
    match sliceOf defs record.payloadOff.toNat stop with
    | none => .error (.invalidStore "definition body out of bounds")
    | some body => .ok body

/-- Decodes one projection entry, inserting it. -/
def decodeProjection (table : Bytes) (defs : List UInt64) (catalog : Catalog) (record : DefWire) :
    Except DbError Catalog := do
  let name ← readStr table record.nameOff record.nameLen
  let body ← defBody record defs
  let definition ← (decodeProjectionBody record.kind name body).mapError .invalidStore
  registered (catalog.insertProjection record.id definition)

/-- Decodes one index entry, inserting it. -/
def decodeIndexEntry (table : Bytes) (defs : List UInt64) (catalog : Catalog) (record : DefWire) :
    Except DbError Catalog := do
  let name ← readStr table record.nameOff record.nameLen
  let body ← defBody record defs
  let definition ← (decodeIndexBody record.kind body).mapError .invalidStore
  registered (catalog.insertIndex record.id name definition)

/-- Rebuilds the catalog from its record sections and the definition run. -/
def decodeCatalog (snapshot : Container.Snapshot) (table : Bytes) (defs : List UInt64) :
    Except DbError Catalog := do
  let catalog := Catalog.empty
  let catalog ← decodeNamed table Catalog.insertRole catalog
    (← typedRecordsDb NamedWire snapshot sectionCatalogRoles)
  let catalog ← decodeNamed table Catalog.insertLabel catalog
    (← typedRecordsDb NamedWire snapshot sectionCatalogLabels)
  let catalog ← decodeNamed table Catalog.insertRelationType catalog
    (← typedRecordsDb NamedWire snapshot sectionCatalogRelationTypes)
  let catalog ← (← typedRecordsDb PropertyKeyWire snapshot sectionCatalogPropertyKeys).foldlM
    (decodePropertyKey table) catalog
  let catalog ← (← typedRecordsDb DefWire snapshot sectionCatalogProjections).foldlM
    (decodeProjection table defs) catalog
  (← typedRecordsDb DefWire snapshot sectionCatalogIndexes).foldlM
    (decodeIndexEntry table defs) catalog

/-- Splits a framed posting section into its directory bytes and its pool bytes. -/
def splitPostingSection (bytes : Bytes) : Except StorageError (Bytes × Bytes) :=
  if bytes.isEmpty then .ok ([], [])
  else if bytes.length < 16 then
    .error (.invalidStore "posting section is missing its frame prefix")
  else
    let (dirLen, poolLen) : UInt64 × UInt64 := readFromPrefix bytes
    match checkedAdd 16 dirLen.toNat with
    | none => .error (.invalidStore "posting section directory overflow")
    | some dirEnd =>
      match checkedAdd dirEnd poolLen.toNat with
      | none => .error (.invalidStore "posting section pool overflow")
      | some poolEnd =>
        match sliceOf bytes 16 dirEnd with
        | none => .error (.invalidStore "posting section directory out of bounds")
        | some dir =>
          match sliceOf bytes dirEnd poolEnd with
          | none => .error (.invalidStore "posting section pool out of bounds")
          | some pool => .ok (dir, pool)

end Sections

end Oxgraph
