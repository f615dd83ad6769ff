import VectorDb.Db.DatabaseConfig
import VectorDb.Index.BruteForceIndex
import VectorDb.Index.HnswFile
import VectorDb.Storage.MetadataMatching
import VectorDb.Storage.VectorFile

/-!
src/db/database.cpp: a directory with a vector file, an index file and a metadata
store, and the handle that keeps all of it in memory. Every operation is
`Throwing` code, so what it leaves behind when it throws is part of its meaning.

Any call to SQLite and any file access may fail. What a process that dies leaves
on disk is what the same code leaves there when every call from some point on
fails; its memory is lost.
-/
set_option autoImplicit false

namespace VectorDb.Db

open VectorDb.Lib VectorDb.Storage VectorDb.Index Throwing

/-- What the code is run on: floating point, the standard algorithms and the level
function of `random_level`. -/
structure Platform (K : Type) [BEq K] [LT K] [DecidableLT K] extends Arithmetic K where
  std : StdAlgorithms (Candidate K)
  levelOf : Nat → BitVec 64 → Nat

/-- How one file access ends. A replacement can fail before the rename or after. -/
inductive FileOutcome where
  | done
  | failed (detail : String)
  | doneThenFailed (detail : String)

/-- Which calls fail, of SQLite's and of the file system's, counted from the first. -/
structure Environment where
  sql : Faults
  file : Nat → FileOutcome

/-- index.hnsw, with the ids its nodes were added for, which are not in it. -/
structure IndexFile where
  bytes : Bytes
  addedFor : List VectorId

/-- vectors.bin and index.hnsw. `torn` tells that the first was replaced and the
second not yet; nothing reads it. -/
structure Files where
  vectors : Option Bytes
  index : Option IndexFile
  torn : Bool
  clock : Nat

/-- A database directory that a process works on. -/
structure Directory where
  files : Files
  metadata : MetadataStore

inductive VectorIndex where
  | bruteForce
  | hnsw (h : HnswIndex)

/-- `Database::Impl` without its metadata store. `addedFor` has the id each node
was added for; nothing reads it. -/
structure Database where
  config : DatabaseConfig
  store : VectorStore
  index : VectorIndex
  nextAutoId : VectorId
  dirty : Bool
  hasMetadata : Bool
  addedFor : List VectorId

/-- An open database and its directory. -/
structure Handle extends Directory where
  db : Database

abbrev DirectoryCall (α : Type) := Throwing Error Directory α

abbrev Call (α : Type) := Throwing Error Handle α

def onMetadata {α : Type} (x : MetadataStore.Call α) : DirectoryCall α :=
  Throwing.on Directory.metadata (fun s d => { d with metadata := s }) x

def onDirectory {α : Type} (x : DirectoryCall α) : Call α :=
  Throwing.on Handle.toDirectory (fun d h => { h with toDirectory := d }) x

def onStore {α : Type} (x : VectorStore.Call α) : Call α :=
  Throwing.on (fun h : Handle => h.db.store)
    (fun s h => { h with db := { h.db with store := s } }) x

def update (f : Database → Database) : Call Unit := modify fun h => { h with db := f h.db }

/-- Count one file access. -/
def Files.tick (f : Files) : Files := { f with clock := f.clock + 1 }

section Files
variable (env : Environment)

/-- `write_file_atomically`, for the file that `put` replaces. -/
def replaceFile (put : Files → Files) : DirectoryCall Unit := do
  let d ← get
  set { d with files := d.files.tick }
  match env.file d.files.clock with
  | .done => modify fun d => { d with files := put d.files }
  | .failed detail => throw (.io detail)
  | .doneThenFailed detail =>
    modify fun d => { d with files := put d.files }
    throw (.io detail)

/-- `MappedFile`. -/
def mapFile (bytes : Bytes) : DirectoryCall Bytes := do
  let d ← get
  set { d with files := d.files.tick }
  match env.file d.files.clock with
  | .done => return bytes
  | .failed detail => throw (.io detail)
  | .doneThenFailed detail => throw (.io detail)

end Files

section View
variable {K : Type} [BEq K] [LT K] [DecidableLT K] (p : Platform K)

/-- `VectorStore::accessor`, with the rank keys of a metric. -/
def accessor (metric : Metric) (s : VectorStore) : SlotView K where
  dimension := s.dimension
  size := s.slotCount
  size_le := s.vectors.count_le
  key a b := p.withNorms metric (s.vector a) (s.norm a) (s.vector b) (s.norm b)
  live := s.isLive

/-- A query as both indexes see it; only cosine needs its norm. -/
def queryOf (metric : Metric) (s : VectorStore) (vector : FloatVector) : Query K where
  size := vector.length
  key b := p.withNorms metric vector
    (if metric = .cosine then p.l2Norm vector else Component.zero) (s.vector b) (s.norm b)

/-- One turn of `build_index`. -/
def replaySlot (metric : Metric) (s : VectorStore) (h : HnswIndex) (slot : LocalId) :
    Except Error HnswIndex := do
  let h ← HnswIndex.add p.std (accessor p metric s) p.levelOf h slot
  return if s.isLive slot then h else h.remove slot

/-- The graph `build_index` builds. -/
def replay (metric : Metric) (config : HnswConfig) (s : VectorStore) : Except Error HnswIndex := do
  (List.range s.slotCount).foldlM (replaySlot p metric s) (← HnswIndex.create metric config)

/-- The index that `build_index` installs, and the ids its nodes are added for. -/
def builtIndex (config : DatabaseConfig) (s : VectorStore) :
    Except Error (VectorIndex × List VectorId) :=
  match config.indexType with
  | .hnsw => do return (.hnsw (← replay p config.metric config.hnsw s), s.localToId)
  | .bruteForce => .ok (.bruteForce, [])

def buildIndex : Call Unit := do
  let h ← get
  let built ← fromExcept (builtIndex p h.db.config h.db.store)
  update fun db => { db with index := built.1, addedFor := built.2 }

/-- `index_->add`, with the accessor refreshed. -/
def indexAdd (slot : LocalId) : Call Unit := do
  let h ← get
  match h.db.index with
  | .bruteForce => return
  | .hnsw index =>
    let view := accessor p h.db.config.metric h.db.store
    let index ← fromExcept (HnswIndex.add p.std view p.levelOf index slot)
    update fun db =>
      { db with index := .hnsw index, addedFor := db.addedFor ++ [db.store.vectorId slot] }

def VectorIndex.remove (slot : LocalId) : VectorIndex → VectorIndex
  | .bruteForce => .bruteForce
  | .hnsw h => .hnsw (h.remove slot)

variable (env : Environment)

/-- `flush`. -/
def flush : Call Unit := do
  let h ← get
  if h.db.dirty then
    onDirectory (replaceFile env fun f =>
      { f with vectors := some (writeVectorFile h.db.store), torn := true })
    match h.db.index with
    | .bruteForce => pure ()
    | .hnsw index =>
      onDirectory (replaceFile env fun f =>
        { f with
          index := some ⟨writeHnswFile index h.db.config.dimension, h.db.addedFor⟩, torn := false })
    onDirectory (onMetadata (MetadataStore.setConfig env.sql kKeyNextId
      (toString h.db.nextAutoId.val)))
    update fun db => { db with dirty := false }

/-- `~Database`. -/
def destroy : Call Unit :=
  tryCatch (flush env) fun _ => pure ()

/-- The counter after an explicit or automatic insert of `id`; it wraps. -/
def advance (nextAutoId id : VectorId) : VectorId :=
  if nextAutoId ≤ id then id + 1 else nextAutoId

def insert (id : VectorId) (vector : FloatVector) (metadata : Metadata) : Call Unit := do
  let slot ← onStore (VectorStore.insert p.toArithmetic id vector)
  indexAdd p slot
  if !metadata.isEmpty then
    onDirectory (onMetadata (MetadataStore.set env.sql id metadata))
    update fun db => { db with hasMetadata := true }
  update fun db => { db with nextAutoId := advance db.nextAutoId id, dirty := true }

/-- The `insert` that assigns the id. -/
def insertAuto (vector : FloatVector) (metadata : Metadata) : Call VectorId := do
  let h ← get
  insert p env h.db.nextAutoId vector metadata
  return h.db.nextAutoId

def upsert (id : VectorId) (vector : FloatVector) (metadata : Metadata) : Call Unit := do
  let h ← get
  if h.db.store.contains id then
    let _ ← onStore (VectorStore.upsert p.toArithmetic id vector)
    onDirectory (onMetadata (MetadataStore.set env.sql id metadata))
    update fun db =>
      { db with hasMetadata := db.hasMetadata || !metadata.isEmpty, dirty := true }
  else insert p env id vector metadata

def remove (id : VectorId) : Call Bool := do
  let h ← get
  match h.db.store.find id with
  | none => return false
  | some slot =>
    let _ ← onStore (VectorStore.remove id)
    update fun db => { db with index := db.index.remove slot }
    let _ ← onDirectory (onMetadata (MetadataStore.remove env.sql id))
    update fun db => { db with dirty := true }
    return true

def setMetadata (id : VectorId) (metadata : Metadata) : Call Unit := do
  let h ← get
  if !h.db.store.contains id then
    throw (.notFound ("no vector with id " ++ toString id.val))
  onDirectory (onMetadata (MetadataStore.set env.sql id metadata))
  update fun db => { db with hasMetadata := db.hasMetadata || !metadata.isEmpty }

structure StoredVector where
  id : VectorId
  vector : FloatVector
  metadata : Metadata

/-- `get`. -/
def getVector (id : VectorId) : Call (Option StoredVector) := do
  let h ← get
  match h.db.store.find id with
  | none => return none
  | some slot =>
    let metadata ← onDirectory (onMetadata (MetadataStore.get env.sql id))
    return some ⟨id, h.db.store.vector slot, metadata⟩

def Database.size (db : Database) : Nat := db.store.liveCount

/-- `all_ids`. -/
def Database.allIds (db : Database) : List VectorId :=
  (((List.range db.store.slotCount).filter db.store.isLive).map db.store.vectorId).mergeSort

structure QueryOptions where
  k : Nat
  efSearch : Nat
  filter : Filter
  exact : Bool
  filterOversample : Nat
  includeMetadata : Bool

structure QueryResult where
  id : VectorId
  score : BitVec 32
  metadata : Metadata

def kDefaultFilterOversample : Nat := 8

/-- The candidates of a search, before their metadata is looked at. -/
def searchCandidates (db : Database) (query : FloatVector) (options : QueryOptions) :
    Except Error (List (Candidate K)) :=
  let view := accessor p db.config.metric db.store
  let q := queryOf p db.config.metric db.store query
  let exactScan := BruteForceIndex.search p.std view q
    (if options.filter.isEmpty then options.k else db.store.slotCount)
  let oversample :=
    if 0 < options.filterOversample then options.filterOversample else kDefaultFilterOversample
  let fetch :=
    if options.filter.isEmpty then options.k else Persistence.wrap64 (options.k * oversample)
  if options.exact || db.config.indexType == .bruteForce then exactScan
  else
    match db.index with
    | .bruteForce => BruteForceIndex.search p.std view q fetch
    | .hnsw index => index.search p.std view q ⟨fetch, options.efSearch⟩

/-- The loop over the candidates. -/
def collectResults (db : Database) (options : QueryOptions) :
    List (Candidate K) → List QueryResult → DirectoryCall (List QueryResult)
  | [], results => return results
  | c :: candidates, results => do
    if options.k ≤ results.length then
      return results
    let id := db.store.vectorId c.localId
    let score := p.scoreFromRankKey db.config.metric c.key
    if db.hasMetadata && (!options.filter.isEmpty || options.includeMetadata) then
      let metadata ← onMetadata (MetadataStore.get env.sql id)
      if options.filter.matches metadata then
        collectResults db options candidates (results ++ [⟨id, score, metadata⟩])
      else collectResults db options candidates results
    else if options.filter.isEmpty then
      collectResults db options candidates (results ++ [⟨id, score, ∅⟩])
    else collectResults db options candidates results

def search (query : FloatVector) (options : QueryOptions) : Call (List QueryResult) := do
  if options.k = 0 then throw (.invalidArgument "search requires k >= 1")
  let h ← get
  fromExcept (validateVector query h.db.config.dimension)
  let candidates ← fromExcept (searchCandidates p h.db query options)
  onDirectory (collectResults p env h.db options candidates [])

def rebuildIndex : Call Unit := do
  buildIndex p
  update fun db => { db with dirty := true }
  flush env

/-- One turn of the loop of `compact`. -/
def keepSlot (s : VectorStore) (slot : LocalId) : VectorStore.Call Unit :=
  if s.isLive slot then do
    let _ ← VectorStore.appendTrusted (s.vectorId slot) (s.vector slot) (s.norm slot) true
  else pure ()

def compact : Call Nat := do
  let h ← get
  let reclaimed := h.db.store.tombstoneCount
  if reclaimed = 0 then
    return 0
  let empty ← fromExcept (VectorStore.create h.db.config.dimension h.db.config.normalize)
  let kept := exec ((List.range h.db.store.slotCount).forM (keepSlot h.db.store)) empty
  fromExcept kept.1
  update fun db => { db with store := kept.2 }
  buildIndex p
  update fun db => { db with dirty := true }
  flush env
  return reclaimed

/-- What `stats` reports, less the sizes in bytes, the ratio and the description of the index. -/
structure DatabaseStats where
  dimension : Dimension
  metric : Metric
  indexType : IndexType
  liveVectors : Nat
  slots : Nat
  tombstones : Nat
  metadataVectors : Nat
  metadataRows : Nat
  metadataKeys : List Text
  dirty : Bool
  deriving DecidableEq

/-- What `stats` takes from the memory, with what it counts in the tables. -/
def Database.statsOf (db : Database) (metadataVectors metadataRows : Nat)
    (metadataKeys : List Text) : DatabaseStats where
  dimension := db.config.dimension
  metric := db.config.metric
  indexType := db.config.indexType
  liveVectors := db.store.liveCount
  slots := db.store.slotCount
  tombstones := db.store.tombstoneCount
  metadataVectors := metadataVectors
  metadataRows := metadataRows
  metadataKeys := metadataKeys
  dirty := db.dirty

def stats : Call DatabaseStats := do
  let h ← get
  let metadataVectors ← onDirectory (onMetadata (MetadataStore.vectorCount env.sql))
  let metadataRows ← onDirectory (onMetadata (MetadataStore.rowCount env.sql))
  let metadataKeys ← onDirectory (onMetadata (MetadataStore.keys env.sql))
  return h.db.statsOf metadataVectors metadataRows metadataKeys

/-- The opening of metadata.sqlite. -/
def openMetadata : DirectoryCall Unit := onMetadata (MetadataStore.openSchema env.sql)

/-- `create`, in a directory that was just made, up to its `flush`. -/
def initialise (config : DatabaseConfig) : DirectoryCall Database := do
  let store ← fromExcept (VectorStore.create config.dimension config.normalize)
  openMetadata env
  onMetadata (persistConfig env.sql config 0)
  let built ← fromExcept (builtIndex p config store)
  return ⟨config, store, built.1, 0, true, false, built.2⟩

/-- `create`. If its `flush` throws, the handle goes to its destructor. -/
def create (config : DatabaseConfig) : DirectoryCall Database := do
  fromExcept config.validate
  let db ← initialise p env config
  fun d => match exec (flush env) ⟨d, db⟩ with
    | (.ok _, h) => (.ok h.db, h.toDirectory)
    | (.error e, h) => (.error e, (exec (destroy env) h).2.toDirectory)

/-- The store that `open` works with. -/
def loadStore (config : DatabaseConfig) : DirectoryCall VectorStore := do
  let d ← get
  let store ← match d.files.vectors with
    | none => fromExcept (VectorStore.create config.dimension config.normalize)
    | some bytes => do fromExcept (readVectorFile (← mapFile env bytes))
  if store.dimension ≠ config.dimension then
    throw (.corruption ("vector file has dimension " ++ toString store.dimension ++
      " but the database configuration says " ++ toString config.dimension))
  return store

/-- The index as `open` finds it in its file; `none` where it has to be rebuilt. -/
def loadIndex (config : DatabaseConfig) (store : VectorStore) :
    DirectoryCall (Option (HnswIndex × List VectorId)) := do
  let d ← get
  match config.indexType, d.files.index with
  | .hnsw, some file =>
    tryCatch (do
      let bytes ← mapFile env file.bytes
      let index ← fromExcept
        (readHnswFile bytes store.slotCount config.metric config.dimension)
      return some (index, file.addedFor)) fun e =>
        if e.isCorruption || e.isIo then return none else throw e
  | _, _ => return none

/-- `open`, once the directory and metadata.sqlite are known to exist. -/
def openDatabase : DirectoryCall Database := do
  openMetadata env
  let config ← onMetadata (readConfig env.sql)
  let store ← loadStore env config
  let nextAutoId ← onMetadata do
    fromExcept (parseU64 (some ((← MetadataStore.getConfig env.sql kKeyNextId).getD "0"))
      kKeyNextId)
  let rows ← onMetadata (MetadataStore.vectorCount env.sql)
  let loaded ← loadIndex env config store
  match loaded with
  | some (index, addedFor) =>
    return ⟨config, store, .hnsw index, Fin.ofNat 18446744073709551616 nextAutoId, false,
      0 < rows, addedFor⟩
  | none =>
    let built ← fromExcept (builtIndex p config store)
    return ⟨config, store, built.1, Fin.ofNat 18446744073709551616 nextAutoId,
      config.indexType == .hnsw, 0 < rows, built.2⟩

end View

end VectorDb.Db
