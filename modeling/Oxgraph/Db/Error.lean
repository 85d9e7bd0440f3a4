import Oxgraph.Db.Value

/-! The database's error surface: one type composing the four subsystem errors. -/

namespace Oxgraph

/-- Errors from the persistence layer: db files, the superblock, the base format, the delta log. -/
inductive StorageError where
  -- Db files already exist.
  | alreadyExists
  -- Db files do not exist.
  | notFound
  -- An IO error with operation context.
  | io (operation : String)
  -- Storage bytes are invalid.
  | invalidStore (message : String)
  -- The store's format version is not supported by this build.
  | unsupportedFormat (found expected : UInt32)
  -- A delta-log record is corrupt beyond the recoverable torn tail.
  | logCorrupt (lsn : UInt64) (reason : String)
  -- A delta-log record names a different base generation than the superblock.
  | baseGenerationMismatch (expected found : UInt64)
  deriving DecidableEq, Repr

/-- Errors from catalog identity: canonical ids, catalog names, and declared schema shapes. -/
inductive CatalogError where
  -- A referenced canonical id is not present.
  | unknownId (family : IdFamily) (id : UInt64)
  -- A catalog name was not found in a bound schema.
  | unknownName (kind name : String)
  -- Duplicate catalog name or ID.
  | duplicateName
  -- A declared schema item conflicts with an existing catalog entry.
  | schemaConflict (name reason : String)
  deriving DecidableEq, Repr

/-- Errors from the transaction lifecycle: the single-writer lock and id and sequence allocation. -/
inductive TxnError where
  -- The single-writer lock is already held by another writer.
  | writerLockHeld
  -- Canonical ID space is exhausted.
  | idOverflow (family : IdFamily)
  -- Transaction ID space is exhausted.
  | transactionIdOverflow
  -- Commit sequence space is exhausted.
  | commitSeqOverflow
  deriving DecidableEq, Repr

/-- Errors from query and read validation. -/
inductive QueryError where
  -- The query text is empty.
  | empty
  -- The request is outside the supported profile.
  | unsupported (message : String)
  -- Property value type mismatched the catalog schema.
  | propertyTypeMismatch (expected actual : PropertyType)
  -- Property subject family mismatched the catalog schema.
  | wrongPropertyFamily (expected actual : PropertyFamily)
  -- A projection cannot be materialized.
  | invalidProjection (message : String)
  -- A traversal request cannot be served.
  | traversal (reason : String)
  deriving DecidableEq, Repr

/-- Errors raised by the database product. -/
inductive DbError where
  | storage (error : StorageError)
  | catalog (error : CatalogError)
  | txn (error : TxnError)
  | query (error : QueryError)
  deriving DecidableEq, Repr

-- The texts of the errors.

/-- The text of an id family. -/
def IdFamily.display : IdFamily → String
  | .element => "element"
  | .relation => "relation"
  | .incidence => "incidence"
  | .role => "role"
  | .label => "label"
  | .relationType => "relation type"
  | .propertyKey => "property key"
  | .projection => "projection"
  | .index => "index"

/-- The name of a property type's variant. -/
def PropertyType.debug : PropertyType → String
  | .boolean => "Boolean"
  | .integer => "Integer"
  | .text => "Text"

/-- The name of a property family's variant. -/
def PropertyFamily.debug : PropertyFamily → String
  | .element => "Element"
  | .relation => "Relation"
  | .incidence => "Incidence"

/-- The text of a storage error. -/
def StorageError.display : StorageError → String
  | .alreadyExists => "database already exists"
  | .notFound => "database not found"
  -- The text of the operating system's own error would follow.
  | .io operation => s!"{operation} failed: "
  | .invalidStore message => s!"invalid store: {message}"
  | .unsupportedFormat found expected =>
    s!"unsupported OXGDB format version: found {found}, this build requires {expected}"
  | .logCorrupt lsn reason => s!"delta-log corrupt at lsn {lsn}: {reason}"
  | .baseGenerationMismatch expected found =>
    s!"base generation mismatch: superblock names {expected}, record has {found}"

/-- The text of a catalog error. -/
def CatalogError.display : CatalogError → String
  | .unknownId family id => "unknown " ++ family.display ++ s!" {id}"
  | .unknownName kind name => s!"unknown {kind} " ++ name.quote
  | .duplicateName => "duplicate catalog name"
  | .schemaConflict name reason => "schema conflict for " ++ name.quote ++ s!": {reason}"

/-- The text of a transaction error. -/
def TxnError.display : TxnError → String
  | .writerLockHeld => "database writer lock is held"
  | .idOverflow family => "database " ++ family.display ++ " ID overflow"
  | .transactionIdOverflow => "transaction ID overflow"
  | .commitSeqOverflow => "commit sequence overflow"

/-- The text of a query error. -/
def QueryError.display : QueryError → String
  | .empty => "empty query"
  | .unsupported message => s!"unsupported query: {message}"
  | .propertyTypeMismatch expected actual =>
    "property type mismatch: expected " ++ expected.debug ++ ", got " ++ actual.debug
  | .wrongPropertyFamily expected actual =>
    "property family mismatch: expected " ++ expected.debug ++ ", got " ++ actual.debug
  | .invalidProjection message => s!"invalid projection: {message}"
  | .traversal reason => s!"traversal error: {reason}"

/-- The text of a database error. -/
def DbError.display : DbError → String
  | .storage error => error.display
  | .catalog error => error.display
  | .txn error => error.display
  | .query error => error.display

namespace DbError

/-- Creates an unsupported-query error. -/
def unsupported (message : String) : DbError := .query (.unsupported message)

/-- Creates an invalid-projection error. -/
def invalidProjection (message : String) : DbError := .query (.invalidProjection message)

/-- Creates a traversal error. -/
def traversal (reason : String) : DbError := .query (.traversal reason)

/-- Creates an invalid-store error. -/
def invalidStore (message : String) : DbError := .storage (.invalidStore message)

/-- Creates a log-corruption error. -/
def logCorrupt (lsn : UInt64) (reason : String) : DbError := .storage (.logCorrupt lsn reason)

/-- Builds an unknown-id error from a canonical id of some family. -/
def unknown (family : IdFamily) (id : UInt64) : DbError := .catalog (.unknownId family id)

/-- Builds the id-exhaustion error for a family's allocator. -/
def idOverflow (family : IdFamily) : DbError := .txn (.idOverflow family)

end DbError

end Oxgraph
