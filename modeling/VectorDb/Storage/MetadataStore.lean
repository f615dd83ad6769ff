import VectorDb.Storage.Sqlite

/-!
src/storage/metadata_store.cpp: the metadata of each vector and the database's
configuration, in one SQLite file. Every write is `Throwing` code over the
store, so what it leaves behind when SQLite fails is part of its meaning.
-/
set_option autoImplicit false

namespace VectorDb.Storage

open VectorDb.Lib

/-- The ids in the order SQLite gives them, as signed integers. -/
def Tables.orderedIds (t : Tables) : List VectorId :=
  t.metadata.keys.filter (fun id => decide (9223372036854775808 ≤ id.val)) ++
    t.metadata.keys.filter fun id => decide (id.val < 9223372036854775808)

/-- `MetadataStore::Impl`. `transaction` says whether the pointer holds a
`sql::Transaction` object. -/
structure MetadataStore where
  connection : Connection
  depth : Nat
  transaction : Bool

namespace MetadataStore

abbrev Call (α : Type) := Throwing Error MetadataStore α

def sql {α : Type} (x : Sql α) : Call α :=
  Throwing.on connection (fun c s => { s with connection := c }) x

variable (faults : Faults)

/-- What the constructor does on its connection. -/
def openSchema : Call Unit := do
  sql (sqlCall faults .statement ("SQL failed: " ++ ·))
  sql (runStatement faults none (·.withSchemaVersion))

/-- `~Transaction` of an object that was not committed. -/
def destroyTransaction : Call Unit :=
  tryCatch (sql (executeRollback faults)) fun e =>
    match e with
    | .metadata _ => pure ()
    | e => throw e

/-- The depth goes up before `BEGIN IMMEDIATE` runs, and the pointer's old
object is destroyed after it. -/
def beginLocked : Call Unit := do
  let s ← get
  set { s with depth := s.depth + 1 }
  if s.depth = 0 then
    sql (executeBegin faults)
    if s.transaction then destroyTransaction faults
    modify fun s => { s with transaction := true }

/-- Without a Transaction object the source dereferences a null pointer. -/
def commitLocked : Call Unit := do
  let s ← get
  if s.depth = 0 then
    return
  set { s with depth := s.depth - 1 }
  if s.depth - 1 = 0 then
    if s.transaction then
      sql (executeCommit faults)
      modify fun s => { s with transaction := false }
    else throw (.foreign "null pointer dereference")

def rollbackLocked : Call Unit := do
  let s ← get
  set { s with depth := 0 }
  if s.transaction then destroyTransaction faults
  modify fun s => { s with transaction := false }

/-- The statements of `set` after its transaction began. -/
def replaceRows (id : VectorId) (entries : List (Text × MetadataValue)) : Call Unit := do
  sql (runStatement faults (some .deleteByVector) (·.deleteByVector id))
  entries.forM fun entry =>
    sql (runStatement faults (some .insertValue) (·.insertValue id entry.1 (bindValue entry.2)))

/-- Run the body of one locked transaction, rolling back if it throws. -/
def locked (body : Call Unit) : Call Unit := do
  beginLocked faults
  tryCatch body fun e => do
    rollbackLocked faults
    throw e
  commitLocked faults

/-- The check on their keys that `set` and `set_key` begin with. -/
def checkKeys (keys : List Text) : Call Unit :=
  if keys.any List.isEmpty then throw (.invalidArgument "metadata keys must not be empty")
  else pure ()

def set (id : VectorId) (metadata : Metadata) : Call Unit := do
  checkKeys metadata.keys
  locked faults (replaceRows faults id metadata.toList)

def setKey (id : VectorId) (key : Text) (value : MetadataValue) : Call Unit := do
  checkKeys [key]
  sql (runStatement faults (some .insertValue) (·.insertValue id key (bindValue value)))

/-- The rows of one vector, read back. -/
def metadataOf (rows : Std.ExtTreeMap Text Row compare) : Metadata :=
  rows.filterMap fun _ row => row.value?

def get (id : VectorId) : Call Metadata :=
  sql (queryStatement faults (some .selectByVector) fun t => metadataOf (t.rows id))

def removeKey (id : VectorId) (key : Text) : Call Bool := do
  let present ← sql (queryStatement faults none fun t => (t.rows id).contains key)
  if present then
    sql (runStatement faults (some .deleteKey) (·.deleteKey id key))
    return true
  return false

def remove (id : VectorId) : Call Bool := do
  let present ← sql (queryStatement faults none fun t => decide (0 < (t.rows id).size))
  if present then
    sql (runStatement faults (some .deleteByVector) (·.deleteByVector id))
    return true
  return false

def vectorCount : Call Nat :=
  sql (queryStatement faults none fun t => t.metadata.size)

def setConfig (key value : String) : Call Unit :=
  sql (runStatement faults (some .setConfigValue) (·.setConfigValue key value))

def getConfig (key : String) : Call (Option String) :=
  sql (queryStatement faults (some .getConfigValue) fun t => t.schemaInfo[key]?)

def orphanedIds (live : Finset VectorId) : Call (List VectorId) :=
  sql (queryStatement faults none fun t => t.orderedIds.filter (· ∉ live))

def removeOrphans (live : Finset VectorId) : Call Nat := do
  let orphans ← orphanedIds faults live
  if orphans.isEmpty then
    return 0
  locked faults (orphans.forM fun id => sql (runStatement faults (some .deleteByVector) (·.deleteByVector id)))
  return orphans.length

def beginTransaction : Call Unit := beginLocked faults

def commitTransaction : Call Unit := commitLocked faults

def rollbackTransaction : Call Unit := rollbackLocked faults

def inTransaction (body : Call Unit) : Call Unit := do
  beginTransaction faults
  tryCatch body fun e => do
    rollbackTransaction faults
    throw e
  commitTransaction faults

theorem metadataOf_empty : metadataOf ∅ = ∅ :=
  Std.ExtTreeMap.ext_getElem? fun _ => by simp [metadataOf]

/-- Checking keys changes nothing, whether it throws or not. -/
theorem checkKeys_keeps (keys : List Text) (P : MetadataStore → Prop) :
    Throwing.Triple P (checkKeys keys) (fun _ => P) (fun _ => P) := by
  unfold checkKeys
  split
  · exact Throwing.Triple.throw fun _ h => h
  · exact Throwing.Triple.pure fun _ h => h

end MetadataStore

end VectorDb.Storage
