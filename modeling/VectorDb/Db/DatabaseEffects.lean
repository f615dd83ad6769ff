import VectorDb.Db.DatabaseStates
import VectorDb.Persistence.FileIo

/-!
What each call leaves in memory, in the tables and in the files, where it returns and
where SQLite or the file system made it throw.
-/
set_option autoImplicit false

namespace VectorDb.Db

open VectorDb.Lib VectorDb.Storage VectorDb.Index Throwing

/-- The files hold `f`, the tables `t` are committed with nothing open, and `db` is in
memory. -/
structure At (f : Files) (t : Tables) (db : Database) (h : Handle) : Prop where
  files : h.files.Same f
  tables : h.metadata.Holds t
  db : h.db = db

/-- A call that threw after it had changed the memory to `db`. -/
structure Stopped (env : Environment) (f : Files) (t : Tables) (db : Database) (m : Metadata)
    (h : Handle) : Prop where
  files : h.files.Same f
  tables : (h.metadata.Holds t ∧ m.keys.any List.isEmpty) ∨
    MetadataStore.Interrupted env.sql t h.metadata
  db : h.db = db

def Files.withVectors (f : Files) (db : Database) : Files :=
  { f with vectors := some (writeVectorFile db.store), torn := true }

/-- The files after a flush. -/
def Files.flushed (f : Files) (db : Database) : Files :=
  match db.index with
  | .bruteForce => f.withVectors db
  | .hnsw g =>
    { f.withVectors db with
      index := some ⟨writeHnswFile g db.config.dimension, db.addedFor⟩, torn := false }

@[simp] theorem Files.flushed_vectors (f : Files) (db : Database) :
    (f.flushed db).vectors = some (writeVectorFile db.store) := by
  unfold flushed
  split <;> rfl

theorem Tables.replaceRows_schemaInfo (t : Tables) (id : VectorId)
    (entries : List (Text × MetadataValue)) :
    (t.replaceRows id entries).schemaInfo = t.schemaInfo := by
  rw [Tables.replaceRows]
  suffices ∀ u : Tables, u.schemaInfo = t.schemaInfo →
      (entries.foldl (fun t entry => t.insertValue id entry.1 (bindValue entry.2)) u).schemaInfo =
        t.schemaInfo from this _ rfl
  induction entries with
  | nil => exact fun u hu => hu
  | cons entry entries ih => exact fun u hu => ih _ hu

theorem at_of_holds {h : Handle} {t : Tables} (ht : h.metadata.Holds t) (db : Database) :
    At h.files t db { h with db := db } := ⟨.refl _, ht, rfl⟩

/-- No file access fails. -/
def Environment.FilesDone (env : Environment) : Prop := ∀ n, env.file n = .done

section Calls
variable (env : Environment) {f : Files} {t : Tables} {db : Database}

theorem onMetadata_at {α : Type} {x : MetadataStore.Call α} {R : α → MetadataStore → Prop}
    {E : Error → MetadataStore → Prop} (hx : Triple (MetadataStore.Holds t) x R E) :
    Triple (At f t db) (onDirectory (onMetadata x))
      (fun a h => h.files.Same f ∧ R a h.metadata ∧ h.db = db)
      (fun e h => h.files.Same f ∧ E e h.metadata ∧ h.db = db) := by
  rintro h ⟨hf, ht, hd⟩
  have hspec := hx h.metadata ht
  rw [exec_onDirectory, exec_onMetadata]
  rcases hexec : exec x h.metadata with ⟨r, s⟩
  rw [hexec] at hspec
  cases r <;> exact ⟨hf, hspec, hd⟩

theorem update_at (g : Database → Database) {E : Error → Handle → Prop} :
    Triple (At f t db) (update g) (fun _ => At f t (g db)) E := by
  rintro h ⟨hf, ht, rfl⟩
  exact ⟨hf, ht, rfl⟩

/-- The tables after the `set` of some metadata. -/
theorem set_at (id : VectorId) (m : Metadata) :
    Triple (At f t db) (onDirectory (onMetadata (MetadataStore.set env.sql id m)))
      (fun _ => At f (t.replaceRows id m.toList) db) (fun _ => Stopped env f t db m) :=
  (onMetadata_at (MetadataStore.set_holds env.sql id m)).conseq (fun _ h => h)
    (fun _ _ h => ⟨h.1, h.2.1, h.2.2⟩) fun _ _ h => ⟨h.1, h.2.1, h.2.2⟩

/-- What `insert` writes to the tables. -/
def insertedTables (t : Tables) (id : VectorId) (m : Metadata) : Tables :=
  if m.isEmpty then t else t.replaceRows id m.toList

theorem finishInsert_spec (id : VectorId) (m : Metadata) :
    Triple (At f t db) (finishInsert env id m)
      (fun _ => At f (insertedTables t id m)
        { db with
          hasMetadata := db.hasMetadata || !m.isEmpty
          nextAutoId := advance db.nextAutoId id
          dirty := true })
      (fun _ => Stopped env f t db m) := by
  cases hm : m.isEmpty with
  | true =>
    simp only [finishInsert, insertedTables, hm, Bool.not_true, Bool.or_false, if_true,
      Bool.false_eq_true, if_false]
    exact update_at _
  | false =>
    simp only [finishInsert, insertedTables, hm, Bool.not_false, Bool.or_true, if_true,
      Bool.false_eq_true, if_false]
    exact Triple.bind (set_at env id m) fun _ => Triple.bind (update_at _) fun _ => update_at _

theorem finishUpsert_spec (id : VectorId) (m : Metadata) :
    Triple (At f t db) (finishUpsert env id m)
      (fun _ => At f (t.replaceRows id m.toList)
        { db with hasMetadata := db.hasMetadata || !m.isEmpty, dirty := true })
      (fun _ => Stopped env f t db m) :=
  Triple.bind (set_at env id m) fun _ => update_at _

theorem finishSetMetadata_spec (id : VectorId) (m : Metadata) :
    Triple (At f t db) (finishSetMetadata env id m)
      (fun _ => At f (t.replaceRows id m.toList)
        { db with hasMetadata := db.hasMetadata || !m.isEmpty })
      (fun _ => Stopped env f t db m) :=
  Triple.bind (set_at env id m) fun _ => update_at _

/-- Tables that have lost the rows of one id. -/
structure RowsRemoved (t u : Tables) (id : VectorId) : Prop where
  schemaInfo : u.schemaInfo = t.schemaInfo
  rows : ∀ i, u.rows i = if i = id then ∅ else t.rows i

theorem finishRemove_spec (id : VectorId) :
    Triple (At f t db) (finishRemove env id)
      (fun r h => r = true ∧ ∃ u, RowsRemoved t u id ∧ At f u { db with dirty := true } h)
      (fun _ h => At f t db h ∧ ¬ env.sql.Quiet) := by
  refine Triple.bind ((onMetadata_at (MetadataStore.remove_holds env.sql id)).conseq
    (fun _ h => h) (fun _ _ h => h) fun _ _ h => ⟨⟨h.1, h.2.1.1, h.2.2⟩, h.2.1.2⟩) fun _ => ?_
  rintro h ⟨hf, ⟨u, hu, hschema, hrows⟩, hd⟩
  exact ⟨rfl, u, ⟨hschema, hrows⟩, hf, hu, by rw [← hd]⟩

/-- A query leaves the database where it is. -/
theorem query_at {α : Type} (statement : Option Prepared) (read : Tables → α) :
    Maintains (At f t db) (onDirectory (onMetadata
      (MetadataStore.sql (queryStatement env.sql statement read)))) :=
  ((onMetadata_at (MetadataStore.queryStatement_holds env.sql read)).conseq (fun _ h => h)
    (fun _ _ h => ⟨h.1, h.2.1.2, h.2.2⟩) fun _ _ h => ⟨h.1, h.2.1.1, h.2.2⟩).maintains

theorem stats_at : Maintains (At f t db) (stats env) :=
  Maintains.getBind fun h hh => Maintains.bind (query_at env _ _)
    (fun _ => Maintains.bind (query_at env _ _)
      fun _ => Maintains.bind (query_at env _ _) fun _ => Maintains.pure _) h hh

theorem getVector_spec (id : VectorId) :
    Triple (At f t db) (getVector env id)
      (fun r h => r = (db.store.find id).map (fun slot =>
        ⟨id, db.store.vector slot, MetadataStore.metadataOf (t.rows id)⟩) ∧ At f t db h)
      (fun _ h => At f t db h ∧ ¬ env.sql.Quiet) := by
  intro h hh
  have hdb := hh.db
  cases hfind : db.store.find id with
  | none =>
    have hexec : exec (getVector env id) h = (.ok none, h) := by
      simp [getVector, exec_bind, hdb, hfind]
    rw [hexec]
    exact ⟨rfl, hh⟩
  | some slot =>
    have hget := onMetadata_at (MetadataStore.get_holds env.sql id) h hh
    rcases hexec : exec (onDirectory (onMetadata (MetadataStore.get env.sql id))) h with ⟨r, g⟩
    rw [hexec] at hget
    rw [getVector]
    simp only [exec_bind, exec_get, hdb, hfind, hexec]
    cases r with
    | error e => exact ⟨⟨hget.1, hget.2.1.1, hget.2.2⟩, hget.2.1.2⟩
    | ok m =>
      obtain ⟨hf, ⟨rfl, ht⟩, hd⟩ := hget
      exact ⟨rfl, hf, ht, hd⟩

/-- How a run of `write_file_atomically` ended, as one of the three outcomes. -/
def FileOutcome.Ends (outcome : FileOutcome) (path : String) (data : Bytes)
    (m : Persistence.Machine) (r : Except Persistence.Ending Unit) (t : Persistence.Machine) :
    Prop :=
  match outcome with
  | .done => r = .ok () ∧ t.files path = some ⟨data, true⟩
  | .failed detail => r = .error (.threw (.io detail)) ∧ t.files path = m.files path
  | .doneThenFailed detail =>
    r = .error (.threw (.io detail)) ∧ t.files path = some ⟨data, true⟩

/-- Where the process goes on, a replacement ends in one of the ways `replaceFile` knows. -/
theorem exists_fileOutcome (describeErrno : Nat → String) (apple : Bool) {path : String}
    {chunks : List Bytes} {m t : Persistence.Machine} {r : Except Persistence.Ending Unit}
    (h : exec (Persistence.writeFileAtomically describeErrno apple path chunks) m = (r, t))
    (hr : r ≠ .error .stopped) :
    ∃ outcome : FileOutcome, outcome.Ends path chunks.flatten m r t := by
  have hspec := Persistence.writeFileAtomically_spec describeErrno apple chunks m
    (⟨rfl, rfl⟩ : Persistence.Untouched m path m)
  have hthrows := Persistence.throwsOnly_writeFileAtomically describeErrno apple path chunks m
  rw [h] at hspec hthrows
  cases r with
  | ok a => exact ⟨.done, rfl, hspec.1⟩
  | error ending =>
    cases ending with
    | stopped => exact absurd rfl hr
    | threw e =>
      obtain ⟨detail, rfl⟩ := hthrows _ rfl
      rcases hspec with hold | hnew
      · exact ⟨.failed detail, rfl, hold.1⟩
      · exact ⟨.doneThenFailed detail, rfl, hnew.1⟩

/-- A replacement took effect, or failed before it did. -/
theorem replaceFile_spec (put : Files → Files) {R : MetadataStore → Prop}
    (hput : ∀ g, g.Same f → (put g).Same (put f)) :
    Triple (fun d => d.files.Same f ∧ R d.metadata) (replaceFile env put)
      (fun _ d => d.files.Same (put f) ∧ R d.metadata)
      (fun _ d => ((d.files.Same f ∨ d.files.Same (put f)) ∧ R d.metadata) ∧ ¬ env.FilesDone) := by
  rintro d ⟨hf, hm⟩
  have htick : d.files.tick.Same f := ⟨hf.vectors, hf.index, hf.torn⟩
  cases hfault : env.file d.files.clock with
  | done =>
    simp only [replaceFile, exec_bind, exec_get, exec_set, hfault]
    exact ⟨hput _ htick, hm⟩
  | failed detail =>
    simp only [replaceFile, exec_bind, exec_get, exec_set, hfault]
    exact ⟨⟨.inl htick, hm⟩, fun hq => by rw [hq] at hfault; cases hfault⟩
  | doneThenFailed detail =>
    simp only [replaceFile, exec_bind, exec_get, exec_set, hfault]
    exact ⟨⟨.inr (hput _ htick), hm⟩, fun hq => by rw [hq] at hfault; cases hfault⟩

/-- What a flush leaves in the files where a replacement fails. -/
def Files.BetweenFlushes (f : Files) (db : Database) (g : Files) : Prop :=
  g.Same f ∨ g.Same (f.withVectors db) ∨ g.Same (f.flushed db)

theorem flushFiles_spec (db : Database) {R : MetadataStore → Prop} :
    Triple (fun d => d.files.Same f ∧ R d.metadata) (flushFiles env db)
      (fun _ d => d.files.Same (f.flushed db) ∧ R d.metadata)
      (fun _ d => (f.BetweenFlushes db d.files ∧ R d.metadata) ∧ ¬ env.FilesDone) := by
  unfold flushFiles
  refine Triple.bind ((replaceFile_spec env (f := f) (R := R) (fun f =>
      { f with vectors := some (writeVectorFile db.store), torn := true })
      fun g hg => ⟨rfl, hg.index, rfl⟩).conseq (fun _ h => h) (fun _ _ h => h) ?_) fun _ => ?_
  · rintro e d ⟨⟨hf | hf, hm⟩, hq⟩
    · exact ⟨⟨.inl hf, hm⟩, hq⟩
    · exact ⟨⟨.inr (.inl hf), hm⟩, hq⟩
  · cases hi : db.index with
    | bruteForce =>
      refine Triple.pure fun d hd => ?_
      have hflushed : f.flushed db = f.withVectors db := by rw [Files.flushed, hi]
      rw [hflushed]
      exact hd
    | hnsw g =>
      have hflushed : f.flushed db = { f.withVectors db with
          index := some ⟨writeHnswFile g db.config.dimension, db.addedFor⟩, torn := false } := by
        rw [Files.flushed, hi]
      refine (replaceFile_spec env (f := f.withVectors db) (R := R) (fun f =>
        { f with index := some ⟨writeHnswFile g db.config.dimension, db.addedFor⟩, torn := false })
        fun g hg => ⟨hg.vectors, rfl, rfl⟩).conseq (fun _ h => h) ?_ ?_
      · rintro _ d ⟨hf, hm⟩
        rw [hflushed]
        exact ⟨hf, hm⟩
      · rintro e d ⟨⟨hf | hf, hm⟩, hq⟩
        · exact ⟨⟨.inr (.inl hf), hm⟩, hq⟩
        · exact ⟨⟨.inr (.inr (hflushed ▸ hf)), hm⟩, hq⟩

/-- How a flush fails: on the way to the files, or once they are replaced. -/
structure FlushStopped (f : Files) (t : Tables) (db : Database) (h : Handle) : Prop where
  files : h.files.Same (f.flushed db) ∨ f.BetweenFlushes db h.files ∧ ¬ env.FilesDone
  tables : h.metadata.Holds t
  db : h.db = db
  fault : ¬ env.Quiet

theorem writeAll_spec :
    Triple (At f t db) (writeAll env db)
      (fun _ => At (f.flushed db) (t.setConfigValue kKeyNextId (toString db.nextAutoId.val))
        { db with dirty := false })
      (fun _ => FlushStopped env f t db) := by
  refine Triple.bind (Q := fun _ => At (f.flushed db) t db) ?_ fun _ => ?_
  · rintro h ⟨hf, ht, hd⟩
    have hspec := flushFiles_spec env db (f := f) (R := MetadataStore.Holds t) h.toDirectory ⟨hf, ht⟩
    rw [exec_onDirectory]
    rcases hexec : exec (flushFiles env db) h.toDirectory with ⟨r, d⟩
    rw [hexec] at hspec
    cases r with
    | ok u => exact ⟨hspec.1, hspec.2, hd⟩
    | error e => exact ⟨.inr ⟨hspec.1.1, hspec.2⟩, hspec.1.2, hd, fun hq => hspec.2 hq.2⟩
  · refine Triple.bind ((onMetadata_at (MetadataStore.setConfig_holds env.sql kKeyNextId
      (toString db.nextAutoId.val))).conseq (fun _ h => h) (fun _ _ h => ⟨h.1, h.2.1, h.2.2⟩) ?_)
      fun _ => update_at _
    rintro e h ⟨hf, ⟨ht, hq⟩, hd⟩
    exact ⟨.inl hf, ht, hd, fun h => hq h.1⟩

theorem flush_spec (hdirty : db.dirty = true) :
    Triple (At f t db) (flush env)
      (fun _ => At (f.flushed db) (t.setConfigValue kKeyNextId (toString db.nextAutoId.val))
        { db with dirty := false })
      (fun _ => FlushStopped env f t db) := by
  intro h hh
  rw [exec_flush, hh.db, if_pos hdirty]
  exact writeAll_spec env h hh

theorem finishRebuild_spec {α : Type} (result : α) :
    Triple (At f t db) (finishRebuild env result)
      (fun r h => r = result ∧ At (f.flushed db)
        (t.setConfigValue kKeyNextId (toString db.nextAutoId.val)) { db with dirty := false } h)
      (fun _ => FlushStopped env f t { db with dirty := true }) := by
  refine Triple.bind (update_at (fun db => { db with dirty := true })) fun _ => ?_
  refine Triple.bind (flush_spec env rfl) fun _ => ?_
  exact Triple.pure fun h hh => ⟨rfl, hh⟩

end Calls

section Create
variable {K : Type} [BEq K] [LT K] [DecidableLT K] (p : Platform K) (env : Environment)

/-- What `create` returns is in the files. -/
theorem create_spec {c : DatabaseConfig} (hv : c.validate = .ok ()) :
    Triple (fun d => d.files.Same newDirectory.files ∧ MetadataStore.Holds ⟨∅, ∅⟩ d.metadata)
      (create p env c)
      (fun db d => ∃ made, Created p c made ∧ At (newDirectory.files.flushed made)
        ((newTables c).setConfigValue kKeyNextId (toString made.nextAutoId.val))
        { made with dirty := false } ⟨d, db⟩)
      (fun _ _ => ¬ env.Quiet) := by
  intro d hd
  have hinit := initialise_spec p env hv d hd
  rw [exec_create p env hv]
  rcases hexec : exec (initialise p env c) d with ⟨r, e⟩
  rw [hexec] at hinit
  cases r with
  | error e => exact fun hq => hinit.2 hq.1
  | ok db =>
    obtain ⟨hdb, hf, ht⟩ := hinit
    have hflush := flush_spec env hdb.dirty ⟨e, db⟩
      (⟨hf, ht, rfl⟩ : At newDirectory.files (newTables c) db ⟨e, db⟩)
    dsimp only
    rcases hexec : exec (flush env) ⟨e, db⟩ with ⟨r, h⟩
    rw [hexec] at hflush
    cases r with
    | ok u => exact ⟨db, hdb, hflush⟩
    | error e => exact hflush.fault

end Create

section Quiet
variable {K : Type} [BEq K] [LT K] [DecidableLT K] (p : Platform K) {env : Environment}
variable {f : Files} {t : Tables} {h : Handle} {b : Prop} {id : VectorId} {v : FloatVector}
  {m : Metadata}

theorem Stopped.elim_quiet {db : Database} {g : Handle} (hs : Stopped env f t db m g)
    (hq : env.Quiet) (hm : m.keys.any List.isEmpty = false) : False := by
  rcases hs.tables with ⟨-, hkeys⟩ | ⟨-, hfault⟩
  · rw [hm] at hkeys
    cases hkeys
  · exact hfault hq.1

/-- Where nothing fails, `create` returns. -/
theorem create_quiet (hq : env.Quiet) {c : DatabaseConfig} (hv : c.validate = .ok ()) :
    ∃ made db d, Created p c made ∧ exec (create p env c) newDirectory = (.ok db, d) ∧
      At (newDirectory.files.flushed made)
        ((newTables c).setConfigValue kKeyNextId (toString made.nextAutoId.val))
        { made with dirty := false } ⟨d, db⟩ := by
  obtain ⟨db, d, hexec, made, hmade, hat⟩ := ((create_spec p env hv).conseq (fun _ h => h)
    (fun _ _ h => h) fun _ _ hn => hn hq).returns ⟨.refl _, MetadataStore.holds_fresh _⟩
  exact ⟨made, db, d, hmade, hexec, hat⟩

theorem find_empty {s : VectorStore} (hs : s.Consistent) (hcount : s.slotCount = 0)
    (id : VectorId) : s.find id = none := by
  cases hfind : s.find id with
  | none => rfl
  | some slot =>
    have hlt := ((hs.find_iff id slot).mp hfind).1
    rw [hcount] at hlt
    exact absurd hlt (Nat.not_lt_zero _)

/-- A store without slots takes any vector of its dimension. -/
theorem insertCheck_empty {s : VectorStore} (hs : s.Consistent) (hcount : s.slotCount = 0)
    (hv : validateVector v s.dimension = .ok ()) : s.insertCheck id v = .ok () := by
  rw [VectorStore.insertCheck, VectorStore.contains, find_empty hs hcount, hcount,
    if_neg (by simp), if_neg (by decide), hv]

/-- Where nothing fails, an `insert` that passes its checks returns. -/
theorem insert_quiet (hq : env.Quiet) (hh : HandleSound b h) (ht : h.metadata.Holds t)
    (hc : h.db.store.insertCheck id v = .ok ()) (hm : m.keys.any List.isEmpty = false) :
    ∃ db g, Grown p h.db db id v ∧ exec (insert p env id v m) h = (.ok (), g) ∧
      At h.files (insertedTables t id m)
        { db with
          hasMetadata := db.hasMetadata || !m.isEmpty
          nextAutoId := advance db.nextAutoId id
          dirty := true } g := by
  obtain ⟨db, hg, hexec⟩ := exec_insert_accepted p env (m := m) hh.database.store.consistent
    hh.database.index hc
  obtain ⟨_, g, hfinish, hat⟩ := ((finishInsert_spec env id m).conseq (fun _ h => h)
    (fun _ _ h => h) fun _ _ hs => hs.elim_quiet hq hm).returns (at_of_holds ht db)
  exact ⟨db, g, hg, hexec.trans hfinish, hat⟩

/-- Where nothing fails, a vector with an id in use is removed. -/
theorem remove_quiet (hq : env.Quiet) (ht : h.metadata.Holds t) {slot : LocalId}
    (hfind : h.db.store.find id = some slot) :
    ∃ s u g, VectorStore.Removed h.db.store s id slot ∧ RowsRemoved t u id ∧
      exec (remove env id) h = (.ok true, g) ∧
      At h.files u { h.db with store := s, index := h.db.index.remove slot, dirty := true } g := by
  obtain ⟨s, hs, hexec⟩ := exec_remove_present env hfind
  obtain ⟨_, g, hfinish, rfl, u, hu, hat⟩ := ((finishRemove_spec env id).conseq (fun _ h => h)
    (fun _ _ h => h) fun _ _ hs => hs.2 hq.1).returns (at_of_holds ht _)
  exact ⟨s, u, g, hs, hu, hexec.trans hfinish, hat⟩

/-- Where nothing fails, `flush` returns. -/
theorem flush_quiet (hq : env.Quiet) (ht : h.metadata.Holds t) (hdirty : h.db.dirty = true) :
    ∃ g, exec (flush env) h = (.ok (), g) ∧ At (h.files.flushed h.db)
      (t.setConfigValue kKeyNextId (toString h.db.nextAutoId.val)) { h.db with dirty := false } g := by
  obtain ⟨_, g, hexec, hat⟩ := ((flush_spec env hdirty).conseq (fun _ h => h)
    (fun _ _ h => h) fun _ _ hs => hs.fault hq).returns (at_of_holds ht h.db)
  exact ⟨g, hexec, hat⟩

end Quiet

/-- An environment in which nothing fails. -/
def faultless : Environment := ⟨fun _ _ => none, fun _ => .done⟩

theorem quiet_faultless : faultless.Quiet := ⟨fun _ _ => rfl, fun _ => rfl⟩

/-- An environment in which SQLite refuses misuse, and nothing else fails. -/
def misuseRefused : Environment :=
  ⟨fun _ call => if call = .bind true then some "bad parameter or other API misuse" else none,
    fun _ => .done⟩

theorem onlyMisuse_misuseRefused : misuseRefused.OnlyMisuse :=
  ⟨⟨fun _ => ⟨"bad parameter or other API misuse", rfl⟩, fun _ _ hcall => if_neg hcall⟩,
    fun _ => rfl⟩

/-- An environment in which every step of a statement fails. -/
def stepsFail : Environment :=
  ⟨fun _ call => if call = .statement then some "disk I/O error" else none, fun _ => .done⟩

section OneVector
variable {K : Type} [BEq K] [LT K] [DecidableLT K]

/-- A database that was made and given one vector, and nothing failed. -/
structure OneVector (p : Platform K) (c : DatabaseConfig) (id : VectorId) (v : FloatVector)
    (m : Metadata) (h₀ h₁ : Handle) : Prop where
  valid : c.validate = .ok ()
  create : exec (create p faultless c) newDirectory = (.ok h₀.db, h₀.toDirectory)
  insert : exec (insert p faultless id v m) h₀ = (.ok (), h₁)
  empty : ∃ made, Created p c made ∧ At (newDirectory.files.flushed made)
    ((newTables c).setConfigValue kKeyNextId (toString made.nextAutoId.val))
    { made with dirty := false } h₀
  one : ∃ grown t, h₀.metadata.Holds t ∧ Grown p h₀.db grown id v ∧
    At h₀.files (insertedTables t id m)
      { grown with
        hasMetadata := grown.hasMetadata || !m.isEmpty
        nextAutoId := advance grown.nextAutoId id
        dirty := true } h₁
  sound : HandleSound True h₁

variable (p : Platform K) {c : DatabaseConfig} {id : VectorId} {v : FloatVector} {m : Metadata}
  {h₀ h₁ : Handle}

theorem exists_oneVector (hv : c.validate = .ok ()) (hsized : c.Sized) (id : VectorId)
    (hvector : validateVector v c.dimension = .ok ()) (hm : m.keys.any List.isEmpty = false) :
    ∃ h₀ h₁, OneVector p c id v m h₀ h₁ := by
  obtain ⟨made, db, d, hmade, hcreate, hat⟩ := create_quiet p quiet_faultless hv
  have hsound : HandleSound True ⟨d, db⟩ := by
    have h := create_sound p faultless hsized hv (b := True)
    rw [hcreate] at h
    exact h
  have hstore : db.store = made.store := by
    have hdb : db = { made with dirty := false } := hat.db
    rw [hdb]
  have hcheck : db.store.insertCheck id v = .ok () := by
    refine insertCheck_empty hsound.database.store.consistent (hstore ▸ hmade.slotCount) ?_
    rw [hstore, hmade.store.dimension]
    exact hvector
  obtain ⟨grown, g, hgrown, hinsert, hat'⟩ := insert_quiet p quiet_faultless hsound
    hat.tables hcheck hm
  refine ⟨⟨d, db⟩, g, hv, hcreate, hinsert, ⟨made, hmade, hat⟩,
    ⟨grown, _, hat.tables, hgrown, hat'⟩, ?_⟩
  have h : HandleSound True (exec (insert p faultless id v m) ⟨d, db⟩).2 :=
    insert_sound p faultless hsound
  rw [hinsert] at h
  exact h

namespace OneVector

theorem slotCount (h : OneVector p c id v m h₀ h₁) : h₁.db.store.slotCount = 1 := by
  obtain ⟨made, hmade, hat⟩ := h.empty
  obtain ⟨grown, t, -, hgrown, hat'⟩ := h.one
  rw [hat'.db]
  show grown.store.slotCount = 1
  rw [hgrown.store.slotCount, hat.db]
  show made.store.slotCount + 1 = 1
  rw [hmade.slotCount]

theorem config (h : OneVector p c id v m h₀ h₁) : h₁.db.config = c := by
  obtain ⟨made, hmade, hat⟩ := h.empty
  obtain ⟨grown, t, -, hgrown, hat'⟩ := h.one
  rw [hat'.db]
  show grown.config = c
  rw [hgrown.rest, hat.db]
  exact hmade.config

theorem find (h : OneVector p c id v m h₀ h₁) : h₁.db.store.find id = some 0 := by
  obtain ⟨made, hmade, hat⟩ := h.empty
  obtain ⟨grown, t, -, hgrown, hat'⟩ := h.one
  have hstore : h₀.db.store = made.store := by rw [hat.db]
  have hcount : h₀.db.store.slotCount = 0 := by rw [hstore, hmade.slotCount]
  have hnew : h₀.db.store.contains id = false := by
    rw [VectorStore.contains, find_empty (hstore ▸ hmade.store.consistent) hcount]
    rfl
  rw [hat'.db]
  show grown.store.find id = some 0
  rw [hgrown.store.find fun _ => hnew, if_pos ⟨rfl, rfl⟩, hcount]

theorem made (h : OneVector p c id v m h₀ h₁) (allowed : Event → Environment → State → Prop)
    (sized : c.Sized) (hcreate : allowed (.create c sized) faultless .absent) :
    (runs p allowed).Reachable (.opened h₀) := by
  refine .step (.start rfl) ⟨_, _, hcreate, ?_⟩
  rw [State.after_create _ _ _ h.valid, h.create, State.ofCall]

theorem reachable (h : OneVector p c id v m h₀ h₁) (allowed : Event → Environment → State → Prop)
    (sized : c.Sized) (hcreate : allowed (.create c sized) faultless .absent)
    (hinsert : allowed (.call (.insert id v m)) faultless (.opened h₀)) :
    (runs p allowed).Reachable (.opened h₁) := by
  refine .step (h.made p allowed sized hcreate) ⟨_, _, hinsert, ?_⟩
  rw [State.after_call, Operation.run, h.insert]

end OneVector

/-- Floating point as it is on vectors of one component that is zero or one. -/
def unitPlatform : Platform Nat where
  l2Norm v := if v.all Component.isZero then Component.zero else Component.one
  reciprocal x := x
  multiply x y := if Component.isZero y then y else x
  withNorms _ a _ b _ := if a = b then 0 else 1
  scoreFromRankKey _ key := if key = 0 then Component.zero else Component.one
  std := .insertion
  levelOf := HnswIndex.exactLevel

def unitConfig : DatabaseConfig := ⟨1, .l2Squared, .hnsw, ⟨2, 2, 1, 15⟩, false⟩

theorem unitConfig_valid : unitConfig.validate = .ok () := by decide

theorem unitConfig_sized : unitConfig.Sized := by
  refine ⟨?_, ?_, ?_⟩ <;> decide

theorem exists_unitVector (m : Metadata) (hm : m.keys.any List.isEmpty = false) :
    ∃ h₀ h₁, OneVector unitPlatform unitConfig 0 [Component.one] m h₀ h₁ :=
  exists_oneVector unitPlatform unitConfig_valid unitConfig_sized 0 (by decide) hm

end OneVector

end VectorDb.Db
