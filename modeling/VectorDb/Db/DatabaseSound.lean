import VectorDb.Db.DatabaseRuns

/-!
What holds in every state a database reaches, however its calls and accesses end:
the store is consistent, the index has a node for each slot, and the files decode to
what some flush wrote.
-/
set_option autoImplicit false

namespace VectorDb.Db

open VectorDb.Lib VectorDb.Storage VectorDb.Index Throwing

/-- The index file was written with the store of vectors.bin. -/
def Files.Agree (f : Files) : Prop :=
  ∀ file, f.index = some file → ∃ s g, s.Consistent ∧ f.vectors = some (writeVectorFile s) ∧
    file.bytes = writeHnswFile g s.dimension ∧ g.liveCount = s.liveCount ∧
    file.addedFor = s.localToId

/-- The index file is not one that is read back for the store of vectors.bin. -/
def Files.Refused (f : Files) : Prop :=
  ∃ s : VectorStore, s.Consistent ∧ f.vectors = some (writeVectorFile s) ∧
    ∀ file, f.index = some file → ∀ (metric : Metric) (dimension : Dimension) (g : HnswIndex),
      readHnswFile file.bytes s.slotCount metric dimension ≠ .ok g

/-- The keys that tell how a database is configured are in the tables. -/
def Configured (c : DatabaseConfig) (t : Tables) : Prop :=
  (∀ entry ∈ c.entries 0, entry.1 ≠ kKeyNextId → t.schemaInfo[entry.1]? = some entry.2) ∧
    ∃ id : VectorId, t.schemaInfo[kKeyNextId]? = some (toString id.val)

/-- What earlier flushes have left in the files; where `b` holds, whole flushes. -/
structure FilesSound (c : DatabaseConfig) (b : Prop) (f : Files) : Prop where
  vectors : ∀ bytes, f.vectors = some bytes → ∃ s : VectorStore, s.Consistent ∧
    s.dimension = c.dimension ∧ s.normalizes = c.normalize ∧ bytes = writeVectorFile s
  index : ∀ file, f.index = some file → ∃ g : HnswIndex, g.nodeCount ≤ kMaxVectorCount ∧
    g.upperLinks.length ≤ g.nodeCount * 130302 ∧ file.bytes = writeHnswFile g c.dimension
  kind : ∀ file, f.index = some file → c.indexType = .hnsw
  untouched : f.vectors = none → f.index = none
  whole : b → f.torn = false → f.Agree

structure DirectorySound (c : DatabaseConfig) (b : Prop) (d : Directory) : Prop where
  files : FilesSound c b d.files
  tables : d.metadata.Everywhere (Configured c)

structure StoreSound (c : DatabaseConfig) (s : VectorStore) : Prop where
  consistent : s.Consistent
  dimension : s.dimension = c.dimension
  normalizes : s.normalizes = c.normalize

structure DatabaseSound (b : Prop) (db : Database) : Prop where
  valid : db.config.validate = .ok ()
  sized : db.config.Sized
  store : StoreSound db.config db.store
  index : IndexFits db.config.indexType db.store db.index
  inStep : b → InStep db.store db.addedFor db.index

structure HandleSound (b : Prop) (h : Handle) : Prop where
  directory : DirectorySound h.db.config b h.toDirectory
  database : DatabaseSound b h.db

/-- A directory whose `create` did not get as far as its configuration. -/
structure Abandoned (d : Disk) : Prop where
  vectors : d.files.vectors = none
  index : d.files.index = none
  tables : d.tables.schemaInfo[kKeyDimension]? = none

structure DiskSound (b : Prop) (d : Disk) : Prop where
  sound : Abandoned d ∨ ∃ c : DatabaseConfig, c.validate = .ok () ∧ c.Sized ∧
    FilesSound c b d.files ∧ Configured c d.tables

def State.Sound (b : Prop) : State → Prop
  | .absent => True
  | .closed d => DiskSound b d
  | .opened h => HandleSound b h

section Tables
variable {c : DatabaseConfig} {t : Tables}

theorem mem_configKeys {entry : String × String} (h : entry ∈ c.entries 0) :
    entry.1 ∈ [kKeyDimension, kKeyMetric, kKeyIndexType, kKeyNormalize, kKeyHnswM,
      kKeyHnswEfConstruction, kKeyHnswEfSearch, kKeyHnswSeed, kKeyNextId] := by
  simp only [DatabaseConfig.entries, List.mem_cons, List.not_mem_nil, or_false] at h
  rcases h with rfl | rfl | rfl | rfl | rfl | rfl | rfl | rfl | rfl <;> simp

theorem Configured.deleteByVector (h : Configured c t) (id : VectorId) :
    Configured c (t.deleteByVector id) := h

theorem Configured.insertValue (h : Configured c t) (id : VectorId) (key : Text) (row : Row) :
    Configured c (t.insertValue id key row) := h

theorem getElem?_setConfigValue (t : Tables) (key value k : String) :
    (t.setConfigValue key value).schemaInfo[k]? =
      if k = key then some value else t.schemaInfo[k]? := by
  simp only [Tables.setConfigValue, Std.ExtTreeMap.getElem?_insert, compare_eq_iff_eq]
  by_cases h : k = key
  · simp [h]
  · simp [h, Ne.symm h]

theorem Configured.setNextId (h : Configured c t) (id : VectorId) :
    Configured c (t.setConfigValue kKeyNextId (toString id.val)) := by
  refine ⟨fun entry hentry hne => ?_, id, ?_⟩
  · rw [getElem?_setConfigValue, if_neg hne]
    exact h.1 entry hentry hne
  · rw [getElem?_setConfigValue, if_pos rfl]

/-- The schema's version has a key of its own. -/
theorem getElem?_withSchemaVersion (t : Tables) {k : String} (hk : k ≠ "schema_version") :
    t.withSchemaVersion.schemaInfo[k]? = t.schemaInfo[k]? := by
  unfold Tables.withSchemaVersion
  split
  · rfl
  · rw [getElem?_setConfigValue, if_neg hk]

theorem Configured.withSchemaVersion (h : Configured c t) : Configured c t.withSchemaVersion := by
  obtain ⟨hentries, id, hid⟩ := h
  refine ⟨fun entry hentry hne => ?_, id, ?_⟩
  · have hkey := mem_configKeys hentry
    rw [getElem?_withSchemaVersion]
    · exact hentries entry hentry hne
    · rintro heq
      rw [heq] at hkey
      exact absurd hkey (by decide)
  · rw [getElem?_withSchemaVersion t (by decide)]
    exact hid

end Tables

section Files
variable (env : Environment)

/-- A file that is replaced holds its old contents or its new ones. -/
theorem replaceFile_triple {P Q : Files → Prop} {R : MetadataStore → Prop} {put : Files → Files}
    (htick : ∀ f, P f → P f.tick) (hput : ∀ f, P f → Q (put f)) :
    Triple (fun d => P d.files ∧ R d.metadata) (replaceFile env put)
      (fun _ d => Q d.files ∧ R d.metadata)
      (fun _ d => (P d.files ∨ Q d.files) ∧ R d.metadata) := by
  rintro d ⟨hf, hm⟩
  have ht := htick d.files hf
  cases hfault : env.file d.files.clock with
  | done =>
    simp only [replaceFile, exec_bind, exec_get, exec_set, hfault]
    exact ⟨hput _ ht, hm⟩
  | failed detail =>
    simp only [replaceFile, exec_bind, exec_get, exec_set, hfault]
    exact ⟨.inl ht, hm⟩
  | doneThenFailed detail =>
    simp only [replaceFile, exec_bind, exec_get, exec_set, hfault]
    exact ⟨.inr (hput _ ht), hm⟩

theorem mapFile_spec {P : Directory → Prop} (htick : ∀ d, P d → P { d with files := d.files.tick })
    (bytes : Bytes) : Triple P (mapFile env bytes) (fun read d => read = bytes ∧ P d)
      (fun e d => e.isIo = true ∧ ¬ env.Quiet ∧ P d) := by
  intro d hd
  have ht := htick d hd
  cases hfault : env.file d.files.clock with
  | done =>
    simp only [mapFile, exec_bind, exec_get, exec_set, hfault]
    exact ⟨rfl, ht⟩
  | failed detail =>
    simp only [mapFile, exec_bind, exec_get, exec_set, hfault]
    exact ⟨rfl, fun hq => (by rw [hq.2] at hfault; cases hfault), ht⟩
  | doneThenFailed detail =>
    simp only [mapFile, exec_bind, exec_get, exec_set, hfault]
    exact ⟨rfl, fun hq => (by rw [hq.2] at hfault; cases hfault), ht⟩

theorem FilesSound.tick {c : DatabaseConfig} {b : Prop} {f : Files} (h : FilesSound c b f) :
    FilesSound c b f.tick := ⟨h.vectors, h.index, h.kind, h.untouched, h.whole⟩

variable {b : Prop} {db : Database}

theorem FilesSound.putVectors {f : Files} (h : FilesSound db.config b f)
    (hdb : DatabaseSound b db) :
    FilesSound db.config b { f with vectors := some (writeVectorFile db.store), torn := true } := by
  refine ⟨fun bytes hbytes => ?_, h.index, h.kind, fun hnone => ?_, fun _ htorn => ?_⟩
  · exact ⟨db.store, hdb.store.consistent, hdb.store.dimension, hdb.store.normalizes,
      (Option.some.inj hbytes).symm⟩
  · cases hnone
  · cases htorn

theorem FilesSound.putIndex {f : Files} (h : FilesSound db.config b f) (hdb : DatabaseSound b db)
    (hvectors : f.vectors = some (writeVectorFile db.store)) {g : HnswIndex}
    (hg : db.index = .hnsw g) :
    FilesSound db.config b { f with
      index := some ⟨writeHnswFile g db.config.dimension, db.addedFor⟩, torn := false } := by
  have hfits := hdb.index
  have hstep := hdb.inStep
  rw [hg] at hfits hstep
  refine ⟨h.vectors, fun file hfile => ?_, fun _ _ => hfits.1, fun hnone => ?_,
    fun hb _ file hfile => ?_⟩
  · cases hfile
    refine ⟨g, ?_, hfits.2.upper_length, rfl⟩
    rw [hfits.2.nodeCount]
    exact db.store.vectors.count_le
  · have hv : f.vectors = none := hnone
    rw [hvectors] at hv
    cases hv
  · cases hfile
    exact ⟨db.store, g, hdb.store.consistent, hvectors, by rw [hdb.store.dimension],
      (hstep hb).1, (hstep hb).2⟩

theorem flushFiles_sound {R : MetadataStore → Prop} (hdb : DatabaseSound b db) :
    Maintains (fun d => FilesSound db.config b d.files ∧ R d.metadata) (flushFiles env db) := by
  apply Triple.maintains
  unfold flushFiles
  refine Triple.bind (Q := fun _ d => (FilesSound db.config b d.files ∧
    d.files.vectors = some (writeVectorFile db.store)) ∧ R d.metadata) ?_ fun _ => ?_
  · refine (replaceFile_triple env (Q := fun f => FilesSound db.config b f ∧
      f.vectors = some (writeVectorFile db.store)) (fun f hf => hf.tick)
      (fun f hf => ⟨hf.putVectors hdb, rfl⟩)).conseq (fun _ h => h) (fun _ _ h => h) ?_
    rintro e d ⟨hf | ⟨hf, -⟩, hm⟩ <;> exact ⟨hf, hm⟩
  · cases hi : db.index with
    | bruteForce => exact Triple.pure fun d h => ⟨h.1.1, h.2⟩
    | hnsw g =>
      refine (replaceFile_triple env (P := fun f => FilesSound db.config b f ∧
        f.vectors = some (writeVectorFile db.store)) (Q := FilesSound db.config b)
        (fun f hf => ⟨hf.1.tick, hf.2⟩) (fun f hf => hf.1.putIndex hdb hf.2 hi)).conseq
        (fun _ h => h) (fun _ _ h => h) ?_
      rintro e d ⟨⟨hf, -⟩ | hf, hm⟩ <;> exact ⟨hf, hm⟩

end Files

section Directory
variable {c : DatabaseConfig} {b : Prop} {α : Type}

theorem onMetadata_sound {x : MetadataStore.Call α} (hx : MetadataStore.Frames (Configured c) x) :
    Maintains (DirectorySound c b) (onMetadata x) :=
  fun d hd => ⟨hd.files, hx d.metadata hd.tables⟩

theorem onDirectory_sound {x : DirectoryCall α} (hx : ∀ c, Maintains (DirectorySound c b) x) :
    Maintains (HandleSound b) (onDirectory x) :=
  fun h hh => ⟨hx h.db.config h.toDirectory hh.directory, hh.database⟩

/-- A change of the flags and the counter only. -/
theorem update_sound {f : Database → Database}
    (hf : ∀ db, DatabaseSound b db → DatabaseSound b (f db) ∧ (f db).config = db.config) :
    Maintains (HandleSound b) (update f) := by
  intro h hh
  obtain ⟨hdb, hc⟩ := hf h.db hh.database
  exact ⟨by rw [exec_update]; exact hc ▸ hh.directory, hdb⟩

theorem frames_set_configured (faults : Faults) (id : VectorId) (m : Metadata) :
    MetadataStore.Frames (Configured c) (MetadataStore.set faults id m) :=
  MetadataStore.frames_set (fun _ ht => ht.deleteByVector id)
    (fun _ key row ht => ht.insertValue id key row) m

theorem frames_remove_configured (faults : Faults) (id : VectorId) :
    MetadataStore.Frames (Configured c) (MetadataStore.remove faults id) :=
  MetadataStore.frames_remove fun _ ht => ht.deleteByVector id

end Directory

section Calls
variable {K : Type} [BEq K] [LT K] [DecidableLT K] (p : Platform K) (env : Environment)
variable {b : Prop} {h : Handle} {id : VectorId} {v : FloatVector} {m : Metadata}

theorem DatabaseSound.flags {db : Database} (hdb : DatabaseSound b db) (nextAutoId : VectorId)
    (dirty hasMetadata : Bool) : DatabaseSound b
      { db with nextAutoId := nextAutoId, dirty := dirty, hasMetadata := hasMetadata } :=
  ⟨hdb.valid, hdb.sized, hdb.store, hdb.index, hdb.inStep⟩

theorem finishInsert_sound (id : VectorId) (m : Metadata) :
    Maintains (HandleSound b) (finishInsert env id m) := by
  have hset : Maintains (HandleSound b)
      (onDirectory (onMetadata (MetadataStore.set env.sql id m))) :=
    onDirectory_sound fun _ => onMetadata_sound (frames_set_configured env.sql id m)
  have hlast : Maintains (HandleSound b) (update fun db =>
      { db with nextAutoId := advance db.nextAutoId id, dirty := true }) :=
    update_sound fun _ hdb => ⟨hdb.flags _ _ _, rfl⟩
  exact Maintains.ite (hset.bind fun _ =>
    Maintains.bind (update_sound fun _ hdb => ⟨hdb.flags _ _ _, rfl⟩) fun _ => hlast) hlast

theorem finishUpsert_sound (id : VectorId) (m : Metadata) :
    Maintains (HandleSound b) (finishUpsert env id m) :=
  Maintains.bind (onDirectory_sound fun _ => onMetadata_sound (frames_set_configured env.sql id m))
    fun _ => update_sound fun _ hdb => ⟨hdb.flags _ _ _, rfl⟩

theorem finishSetMetadata_sound (id : VectorId) (m : Metadata) :
    Maintains (HandleSound b) (finishSetMetadata env id m) :=
  Maintains.bind (onDirectory_sound fun _ => onMetadata_sound (frames_set_configured env.sql id m))
    fun _ => update_sound fun _ hdb => ⟨hdb.flags _ _ _, rfl⟩

theorem finishRemove_sound (id : VectorId) :
    Maintains (HandleSound b) (finishRemove env id) :=
  Maintains.bind (onDirectory_sound fun _ => onMetadata_sound (frames_remove_configured env.sql id))
    fun _ => Maintains.bind (update_sound fun _ hdb => ⟨hdb.flags _ _ _, rfl⟩) fun _ =>
      Maintains.pure _

theorem NodesFor.appended {s t : VectorStore} {g r : HnswIndex} {level : Nat} (hg : NodesFor s g)
    (hr : HnswIndex.Appended g r level) (hlevel : level ≤ 254)
    (hslots : t.slotCount = s.slotCount + 1) : NodesFor t r := by
  have hmul : level * g.upperStride ≤ 254 * 513 := by
    refine Nat.mul_le_mul hlevel ?_
    have := hg.m_le
    rw [HnswIndex.upperStride]
    omega
  have hupper := hg.upper_length
  refine ⟨by rw [hr.nodeCount, hg.nodeCount, hslots], by rw [hr.config]; exact hg.m_le, ?_⟩
  rw [hr.upper_length, hr.nodeCount]
  omega

/-- The index stays in shape and in step when it is given the slot the store filled. -/
theorem Indexed.fits {metric : Metric} {type : IndexType} {s t : VectorStore}
    {ids jds : List VectorId} {row : FloatVector} {norm : BitVec 32} {i j : VectorIndex}
    (hi : Indexed p metric t ids id i j jds) (ha : VectorStore.Appended s t id row norm true)
    (hfits : IndexFits type s i) : IndexFits type t j ∧ (InStep s ids i → InStep t jds j) := by
  cases hi with
  | bruteForce => exact ⟨hfits, fun _ => trivial⟩
  | @hnsw g r hr =>
    obtain ⟨hkind, hnodes⟩ := hfits
    have hroom : g.nodeCount < (accessor p metric t).size := by
      rw [hnodes.nodeCount]
      exact (Nat.lt_succ_self _).trans_eq ha.slotCount.symm
    obtain ⟨q, hq, happ, -⟩ :=
      HnswIndex.add_appended p.std (accessor p metric t) p.levelOf g hroom
    have hqr : q = r := Except.ok.inj (hq.symm.trans hr)
    subst hqr
    refine ⟨⟨hkind, hnodes.appended happ (g.randomLevel_le p.levelOf) ha.slotCount⟩, fun hstep => ?_⟩
    obtain ⟨hlive, hids⟩ := hstep
    exact ⟨by rw [happ.liveCount, ha.liveCount, hlive, if_pos rfl], by rw [hids, ha.ids]⟩

/-- One more vector, in the store and in the index. -/
theorem Grown.sound {d e : Database} (hg : Grown p d e id v) (hd : DatabaseSound b d)
    (hnew : d.store.contains id = false) : DatabaseSound b e ∧ e.config = d.config := by
  have hconfig : e.config = d.config := by rw [hg.rest]
  have ha := hg.store
  obtain ⟨hfits, hstep⟩ := hg.index.fits p ha hd.index
  exact ⟨⟨hconfig ▸ hd.valid, hconfig ▸ hd.sized, ⟨ha.consistent hd.store.consistent fun _ => hnew,
    by rw [ha.dimension, hconfig, hd.store.dimension],
    by rw [ha.normalizes, hconfig, hd.store.normalizes]⟩, hconfig ▸ hfits,
    fun hb => hstep (hd.inStep hb)⟩, hconfig⟩

/-- Other contents in one slot leave the index as it is. -/
theorem DatabaseSound.assigned {d : Database} (hd : DatabaseSound b d) {s : VectorStore}
    {slot : LocalId} {row : FloatVector} {norm : BitVec 32}
    (ha : VectorStore.Assigned d.store s slot row norm) :
    DatabaseSound b { d with store := s } := by
  refine ⟨hd.valid, hd.sized, ⟨ha.consistent hd.store.consistent,
    ha.dimension.trans hd.store.dimension, ha.normalizes.trans hd.store.normalizes⟩, ?_, fun hb => ?_⟩
  · have hfits := hd.index
    show IndexFits d.config.indexType s d.index
    cases hi : d.index with
    | bruteForce =>
      rw [hi] at hfits
      exact hfits
    | hnsw g =>
      rw [hi] at hfits
      exact ⟨hfits.1, hfits.2.nodeCount.trans ha.slotCount.symm, hfits.2.m_le, hfits.2.upper_length⟩
  · have hstep := hd.inStep hb
    show InStep s d.addedFor d.index
    cases hi : d.index with
    | bruteForce => trivial
    | hnsw g =>
      rw [hi] at hstep
      exact ⟨hstep.1.trans ha.liveCount.symm, hstep.2.trans ha.ids.symm⟩

/-- A slot dies in the store and in the index. -/
theorem DatabaseSound.removed {d : Database} (hd : DatabaseSound b d) {s : VectorStore}
    {slot : LocalId} (ha : VectorStore.Removed d.store s id slot)
    (hfind : d.store.find id = some slot) :
    DatabaseSound b { d with store := s, index := d.index.remove slot } := by
  have hdim : s.dimension = d.store.dimension := by
    rw [VectorStore.dimension, ha.vectors, VectorStore.dimension]
  refine ⟨hd.valid, hd.sized, ⟨ha.consistent hd.store.consistent hfind,
    hdim.trans hd.store.dimension, ha.normalizes.trans hd.store.normalizes⟩, ?_, fun hb => ?_⟩
  · have hfits := hd.index
    show IndexFits d.config.indexType s (d.index.remove slot)
    cases hi : d.index with
    | bruteForce =>
      rw [hi] at hfits
      exact hfits
    | hnsw g =>
      rw [hi] at hfits
      obtain ⟨hkind, hnodes⟩ := hfits
      refine ⟨hkind, ?_⟩
      unfold HnswIndex.remove
      split
      · exact ⟨hnodes.nodeCount.trans ha.slotCount.symm, hnodes.m_le, hnodes.upper_length⟩
      · split <;> exact ⟨hnodes.nodeCount.trans ha.slotCount.symm, hnodes.m_le, hnodes.upper_length⟩
  · have hfits := hd.index
    have hstep := hd.inStep hb
    show InStep s d.addedFor (d.index.remove slot)
    cases hi : d.index with
    | bruteForce => trivial
    | hnsw g =>
      rw [hi] at hstep hfits
      have hslot := ((hd.store.consistent.find_iff id slot).mp hfind).1
      have hpos := VectorStore.Removed.liveCount_pos hd.store.consistent hfind
      obtain ⟨hlive, hids⟩ := hstep
      have hremove : g.remove slot = { g with liveCount := g.liveCount - 1 } := by
        rw [HnswIndex.remove, if_neg (by rw [hfits.2.nodeCount]; exact Nat.not_le.mpr hslot),
          if_pos (by omega)]
      refine ⟨?_, hids.trans ha.ids.symm⟩
      rw [hremove, ha.liveCount, ← hlive]

theorem insert_sound (hh : HandleSound b h) :
    HandleSound b (exec (insert p env id v m) h).2 := by
  cases hc : h.db.store.insertCheck id v with
  | error e =>
    rw [exec_insert_rejected p env hc]
    exact hh
  | ok u =>
    obtain ⟨db, hg, hexec⟩ := exec_insert_accepted p env (m := m) hh.database.store.consistent
      hh.database.index hc
    obtain ⟨hdb, hconfig⟩ := hg.sound p hh.database (VectorStore.insertCheck_ok hc).1
    rw [hexec]
    exact finishInsert_sound env id m _ ⟨hconfig ▸ hh.directory, hdb⟩

theorem upsert_sound (hh : HandleSound b h) :
    HandleSound b (exec (upsert p env id v m) h).2 := by
  cases hfind : h.db.store.find id with
  | none =>
    rw [exec_upsert_new p env (by simp [VectorStore.contains, hfind])]
    exact insert_sound p env hh
  | some slot =>
    cases hv : validateVector v h.db.store.dimension with
    | error e =>
      rw [exec_upsert_rejected p env (by simp [VectorStore.contains, hfind]) hv]
      exact hh
    | ok u =>
      obtain ⟨s, ha, hexec⟩ := exec_upsert_accepted p env (m := m) hh.database.store.consistent
        hfind hv
      rw [hexec]
      exact finishUpsert_sound env id m _ ⟨hh.directory, hh.database.assigned ha⟩

theorem remove_sound (hh : HandleSound b h) : HandleSound b (exec (remove env id) h).2 := by
  cases hfind : h.db.store.find id with
  | none =>
    rw [exec_remove_absent env hfind]
    exact hh
  | some slot =>
    obtain ⟨s, ha, hexec⟩ := exec_remove_present env hfind
    rw [hexec]
    exact finishRemove_sound env id _ ⟨hh.directory, hh.database.removed ha hfind⟩

theorem setMetadata_sound (hh : HandleSound b h) :
    HandleSound b (exec (setMetadata env id m) h).2 := by
  cases hc : h.db.store.contains id with
  | false =>
    rw [exec_setMetadata_absent env hc]
    exact hh
  | true =>
    rw [exec_setMetadata_present env hc]
    exact finishSetMetadata_sound env id m h hh

/-- What `flush` writes and notes keeps every file whole or marks it torn. -/
theorem writeAll_sound (hh : HandleSound b h) : HandleSound b (exec (writeAll env h.db) h).2 := by
  have hall : Maintains (fun g => HandleSound b g ∧ g.db.config = h.db.config)
      (writeAll env h.db) := by
    refine Maintains.bind (fun g hg => ?_) fun _ => Maintains.bind (fun g hg => ?_) fun _ g hg => ?_
    · have hfiles := flushFiles_sound env (R := MetadataStore.Everywhere (Configured h.db.config))
        hh.database g.toDirectory ⟨hg.2 ▸ hg.1.directory.files, hg.2 ▸ hg.1.directory.tables⟩
      exact ⟨⟨hg.2.symm ▸ ⟨hfiles.1, hfiles.2⟩, hg.1.database⟩, hg.2⟩
    · refine ⟨onDirectory_sound (fun _ => onMetadata_sound ?_) g hg.1, hg.2⟩
      exact MetadataStore.frames_setConfig fun _ ht => ht.setNextId _
    · exact ⟨update_sound (fun _ hdb => ⟨hdb.flags _ false _, rfl⟩) g hg.1, hg.2⟩
  exact (hall h ⟨hh, rfl⟩).1

theorem flush_sound : Maintains (HandleSound b) (flush env) := by
  intro h hh
  rw [exec_flush]
  split
  · exact writeAll_sound env hh
  · exact hh

theorem destroy_sound : Maintains (HandleSound b) (destroy env) :=
  Maintains.tryCatch (flush_sound env) fun _ => Maintains.pure ()

theorem finishRebuild_sound {α : Type} (result : α) :
    Maintains (HandleSound b) (finishRebuild env result) :=
  Maintains.bind (update_sound fun _ hdb => ⟨hdb.flags _ true _, rfl⟩) fun _ =>
    Maintains.bind (flush_sound env) fun _ => Maintains.pure _

/-- A store of the configured kind with the index that a rebuild makes for it. -/
theorem DatabaseSound.rebuilt {d : Database} (hd : DatabaseSound b d) {s : VectorStore}
    (hs : StoreSound d.config s) {built : VectorIndex × List VectorId}
    (hb : builtIndex p d.config s = .ok built) :
    DatabaseSound b { d with store := s, index := built.1, addedFor := built.2 } := by
  obtain ⟨built', hb', hfits, hstep⟩ := builtIndex_ok p hd.valid hs.consistent.counted
  have heq : built' = built := Except.ok.inj (hb'.symm.trans hb)
  subst heq
  exact ⟨hd.valid, hd.sized, hs, hfits, fun _ => hstep⟩

theorem rebuildIndex_sound (hh : HandleSound b h) :
    HandleSound b (exec (rebuildIndex p env) h).2 := by
  obtain ⟨built, hb, hexec⟩ := exec_rebuildIndex p env hh.database.valid hh.database.store.consistent
  rw [hexec]
  exact finishRebuild_sound env () _ ⟨hh.directory, hh.database.rebuilt p hh.database.store hb⟩

theorem Compacted.storeSound {c : DatabaseConfig} {s t : VectorStore} {n : Nat}
    (ht : Compacted s t n) (hs : StoreSound c s) : StoreSound c t :=
  ⟨ht.consistent, ht.dimension.trans hs.dimension, ht.normalizes.trans hs.normalizes⟩

theorem compact_sound (hh : HandleSound b h) : HandleSound b (exec (compact p env) h).2 := by
  by_cases hzero : h.db.store.tombstoneCount = 0
  · rw [exec_compact_none p env hzero]
    exact hh
  · have hs := hh.database.store
    obtain ⟨t, built, ht, hb, hexec⟩ := exec_compact_some p env hh.database.valid hs.consistent
      hs.dimension hs.normalizes hzero
    rw [hexec]
    exact finishRebuild_sound env _ _ ⟨hh.directory, hh.database.rebuilt p (ht.storeSound hs) hb⟩

theorem query_sound {c : DatabaseConfig} {α : Type} (statement : Option Prepared)
    (read : Tables → α) : Maintains (DirectorySound c b)
      (onMetadata (MetadataStore.sql (queryStatement env.sql statement read))) :=
  onMetadata_sound (MetadataStore.frames_queryStatement read)

theorem get_sound {c : DatabaseConfig} (id : VectorId) :
    Maintains (DirectorySound c b) (onMetadata (MetadataStore.get env.sql id)) :=
  query_sound env _ _

theorem stats_sound : Maintains (HandleSound b) (stats env) :=
  Maintains.getBind fun g hg => Maintains.bind (onDirectory_sound fun _ => query_sound env _ _)
    (fun _ => Maintains.bind (onDirectory_sound fun _ => query_sound env _ _)
      fun _ => Maintains.bind (onDirectory_sound fun _ => query_sound env _ _)
        fun _ => Maintains.pure _) g hg

theorem getVector_sound (hh : HandleSound b h) :
    HandleSound b (exec (getVector env id) h).2 := by
  have hget : Maintains (HandleSound b) (getVector env id) := by
    refine Maintains.getBind fun g hg => ?_
    cases g.db.store.find id with
    | none => exact hg
    | some slot =>
      exact Maintains.bind (onDirectory_sound fun _ => get_sound env id)
        (fun _ => Maintains.pure _) g hg
  exact hget h hh

theorem collectResults_sound {c : DatabaseConfig} (db : Database) (options : QueryOptions)
    (candidates : List (Candidate K)) (results : List QueryResult) :
    Maintains (DirectorySound c b) (collectResults p env db options candidates results) := by
  induction candidates generalizing results with
  | nil => exact Maintains.pure _
  | cons candidate candidates ih =>
    unfold collectResults
    refine Maintains.ite (Maintains.pure _) (Maintains.ite ?_ (Maintains.ite (ih _) (ih _)))
    exact Maintains.bind (get_sound env _) fun m => Maintains.ite (ih _) (ih _)

theorem search_sound (query : FloatVector) (options : QueryOptions) :
    Maintains (HandleSound b) (search p env query options) := by
  have hrest : Maintains (HandleSound b) (do
      let h ← get
      fromExcept (validateVector query h.db.config.dimension)
      let candidates ← fromExcept (searchCandidates p h.db query options)
      onDirectory (collectResults p env h.db options candidates []) : Call (List QueryResult)) :=
    Maintains.getBind fun g hg => Maintains.bind (Maintains.fromExcept _)
      (fun _ => Maintains.bind (Maintains.fromExcept _) fun _ => onDirectory_sound fun _ =>
        collectResults_sound p env _ _ _ _) g hg
  exact Maintains.ite (Maintains.bind (Maintains.throw _) fun _ => hrest) hrest

/-- Every call of a handle, however it ends. -/
theorem Operation.run_sound (op : Operation) : Maintains (HandleSound b) (op.run p env) := by
  intro h hh
  cases op with
  | insert id v m => exact insert_sound p env hh
  | insertAuto v m =>
    rw [run_insertAuto]
    exact insert_sound p env hh
  | upsert id v m => exact upsert_sound p env hh
  | remove id => exact Maintains.bind (fun _ hg => remove_sound env hg) (fun _ => Maintains.pure _) h hh
  | setMetadata id m => exact setMetadata_sound env hh
  | getVector id =>
    exact Maintains.bind (fun _ hg => getVector_sound env hg) (fun _ => Maintains.pure _) h hh
  | search q o =>
    exact Maintains.bind (search_sound p env q o) (fun _ => Maintains.pure _) h hh
  | stats => exact Maintains.bind (stats_sound env) (fun _ => Maintains.pure _) h hh
  | rebuildIndex => exact rebuildIndex_sound p env hh
  | compact =>
    exact Maintains.bind (fun _ hg => compact_sound p env hg) (fun _ => Maintains.pure _) h hh
  | flush => exact flush_sound env h hh

end Calls

end VectorDb.Db
