import VectorDb.Db.DatabaseOpen

/-!
Every event keeps a database sound: what `create` leaves when it fails, what `open`
installs, and the runs of both with the calls between them.
-/
set_option autoImplicit false

namespace VectorDb.Db

open VectorDb.Lib VectorDb.Storage VectorDb.Index Throwing

/-- The same contents, after any number of accesses. -/
structure Files.Same (f g : Files) : Prop where
  vectors : f.vectors = g.vectors
  index : f.index = g.index
  torn : f.torn = g.torn

theorem Files.Same.refl (f : Files) : f.Same f := ⟨rfl, rfl, rfl⟩

/-- Two stores have the same file only if they are the same. -/
theorem writeVectorFile_injective {s t : VectorStore} (hs : s.Consistent) (ht : t.Consistent)
    (h : writeVectorFile s = writeVectorFile t) : s = t := by
  have hread := readVectorFile_write hs
  rw [h, readVectorFile_write ht] at hread
  exact (Except.ok.inj hread).symm

section Files
variable {c : DatabaseConfig} {b : Prop} {f : Files}

/-- vectors.bin always has a store of the configured kind. -/
theorem FilesSound.storeOf (hf : FilesSound c b f) (hv : c.validate = .ok ()) :
    ∃ s, storeOf c f.vectors = .ok s ∧ StoreSound c s ∧
      (f.vectors = some (writeVectorFile s) ∨ f.vectors = none ∧ s.slotCount = 0) := by
  cases hvectors : f.vectors with
  | none =>
    obtain ⟨s, hs, hdim, hnorm, hcount, hc⟩ := VectorStore.create_eq c.normalize
      (validate_dimension hv).1 (validate_dimension hv).2
    exact ⟨s, hs, ⟨hc, hdim, hnorm⟩, .inr ⟨rfl, hcount⟩⟩
  | some bytes =>
    obtain ⟨s, hc, hdim, hnorm, rfl⟩ := hf.vectors bytes hvectors
    exact ⟨s, readVectorFile_write hc, ⟨hc, hdim, hnorm⟩, .inl rfl⟩

/-- The header of a file that was written, where it is in order. -/
structure WrittenHeader (g : HnswIndex) (f : HnswFileHeader) : Prop where
  nodeCount : f.nodeCount = g.nodeCount
  upperLinkCount : f.upperLinkCount = g.upperLinks.length

theorem writtenHeader {g : HnswIndex} {dimension : Dimension} {f : HnswFileHeader}
    (hcount : g.nodeCount ≤ kMaxVectorCount) (hupper : g.upperLinks.length ≤ g.nodeCount * 130302)
    (hf : parseHnswFileHeader (writeHnswFile g dimension) (writeHnswFile g dimension).length =
      .ok f) : WrittenHeader g f := by
  have hmax : kMaxVectorCount < 4294967296 := by decide
  have h := parseHnswFileHeader_write hf
  exact ⟨h.1.trans (Nat.mod_eq_of_lt (by omega)), h.2.2.1.trans (Nat.mod_eq_of_lt (by omega))⟩

/-- No index file that was written is too large. -/
theorem FilesSound.not_tooLarge (hf : FilesSound c b f) (s : VectorStore) :
    ¬ TooLarge c s f.index := by
  rintro ⟨-, file, hfile, header, hparse, -, -, -, hlarge⟩
  obtain ⟨g, hcount, hupper, hbytes⟩ := hf.index file hfile
  have hmax : kMaxVectorCount < 4294967296 := by decide
  have hwords : kMaxWords = 2305843009213693951 := rfl
  have h := (writtenHeader hcount hupper (hbytes ▸ hparse)).upperLinkCount
  omega

/-- An index file that is read back is one that was written, with as many nodes as
the store has slots. -/
theorem FilesSound.readsIndex (hf : FilesSound c b f) (htogether : b → f.Agree ∨ f.Refused)
    {s : VectorStore} (hs : StoreSound c s)
    (hvectors : f.vectors = some (writeVectorFile s) ∨ f.vectors = none ∧ s.slotCount = 0)
    {g : HnswIndex} {ids : List VectorId} (hread : ReadsIndex c s f.index g ids) :
    NodesFor s g ∧ (b → g.liveCount = s.liveCount ∧ ids = s.localToId) := by
  obtain ⟨-, file, hfile, rfl, hread⟩ := hread
  obtain ⟨w, hcount, hupper, hbytes⟩ := hf.index file hfile
  obtain ⟨header, hl⟩ := readHnswFile_eq_ok hread
  have haccepted := parseHnswFileHeader_eq_ok hl.header
  have hmax : kMaxVectorCount < 4294967296 := by decide
  have hvectors : f.vectors = some (writeVectorFile s) := by
    rcases hvectors with hv | ⟨hv, -⟩
    · exact hv
    · rw [hf.untouched hv] at hfile
      cases hfile
  have hw := writtenHeader hcount hupper (hbytes ▸ hl.header)
  have hlinks : g.upperLinks.length = w.upperLinks.length := by
    rw [hl.upper, length_unpackWords, hw.upperLinkCount]
  have hlength : g.nodeCount = header.nodeCount := by
    rw [HnswIndex.nodeCount, hl.levels, length_unpackWords]
  refine ⟨⟨hlength.trans hl.nodeCount_eq, ?_, ?_⟩, fun hb => ?_⟩
  · rw [hl.config]
    exact haccepted.config.m_le
  · rw [hlinks, hlength, hw.nodeCount]
    exact hupper
  · rcases htogether hb with hagree | ⟨s', hs', hv', hrefused⟩
    · obtain ⟨s', g', hs', hv', hb', hlive, hids⟩ := hagree file hfile
      have hsame : s' = s := writeVectorFile_injective hs' hs.consistent
        (Option.some.inj (hv'.symm.trans hvectors))
      subst hsame
      have hwritten := parseHnswFileHeader_write (hb' ▸ hl.header)
      have hle := hs'.liveCount_le
      have hslots : s'.slotCount ≤ kMaxVectorCount := s'.vectors.count_le
      refine ⟨?_, hids⟩
      rw [hl.liveCount, hwritten.2.1, hlive]
      exact Nat.mod_eq_of_lt (by omega)
    · have hsame : s' = s := writeVectorFile_injective hs' hs.consistent
        (Option.some.inj (hv'.symm.trans hvectors))
      subst hsame
      exact absurd hread (hrefused file hfile _ _ _)

end Files

section Open
variable {K : Type} [BEq K] [LT K] [DecidableLT K] (p : Platform K) (env : Environment)
variable {c : DatabaseConfig} {b : Prop}

/-- The directory of a `create` that has not written its configuration yet. -/
def Fresh (d : Directory) : Prop :=
  (d.files.vectors = none ∧ d.files.index = none) ∧
    ∃ t : Tables, t.schemaInfo[kKeyDimension]? = none ∧ d.metadata.Holds t

theorem Fresh.abandoned {d : Directory} (hd : Fresh d) : Abandoned d.disk := by
  obtain ⟨hfiles, t, ht, -, hc⟩ := hd
  exact ⟨hfiles.1, hfiles.2, by rw [Directory.disk, hc]; exact ht⟩

theorem Abandoned.fresh {d : Disk} (hd : Abandoned d) : Fresh d.directory :=
  ⟨⟨hd.vectors, hd.index⟩, d.tables, hd.tables, MetadataStore.holds_fresh _⟩

theorem openMetadata_fresh :
    Triple Fresh (openMetadata env) (fun _ => Fresh) (fun _ => Fresh) := by
  rintro d ⟨hf, t, ht, hs⟩
  refine ((onMetadata_triple (fun f => f.vectors = none ∧ f.index = none)
    (MetadataStore.openSchema_holds env.sql (c := t))).conseq (fun _ h => h) ?_ ?_) d ⟨hf, hs⟩
  · exact fun _ e he => ⟨he.1, _, by rw [getElem?_withSchemaVersion t (by decide)]; exact ht, he.2⟩
  · exact fun _ e he => ⟨he.1, t, ht, he.2.1⟩

/-- The tables after `persist_config`. -/
def configuredTables (t : Tables) (entries : List (String × String)) : Tables :=
  entries.foldl (fun t entry => t.setConfigValue entry.1 entry.2) t

theorem persistConfig_holds (faults : Faults) (c : DatabaseConfig) (id : VectorId) (t : Tables) :
    Triple (MetadataStore.Holds t) (persistConfig faults c id)
      (fun _ => MetadataStore.Holds (configuredTables t (c.entries id)))
      (fun _ => MetadataStore.Interrupted faults t) := by
  refine MetadataStore.locked_holds faults ?_
  exact Triple.forM (H := fun u => MetadataStore.Within t (· = u))
    (fun (u : Tables) (entry : String × String) => u.setConfigValue entry.1 entry.2)
    (fun u entry => MetadataStore.runStatement_within (·.setConfigValue entry.1 entry.2) u) t

theorem configured_configuredTables (c : DatabaseConfig) (id : VectorId) (t : Tables) :
    Configured c (configuredTables t (c.entries id)) := by
  refine ⟨fun entry hentry hne => ?_, id, ?_⟩
  · simp only [DatabaseConfig.entries, List.mem_cons, List.not_mem_nil, or_false] at hentry
    rcases hentry with rfl | rfl | rfl | rfl | rfl | rfl | rfl | rfl | rfl
    all_goals first
      | exact absurd rfl hne
      | simp [configuredTables, DatabaseConfig.entries, getElem?_setConfigValue, kKeyDimension,
          kKeyMetric, kKeyIndexType, kKeyNormalize, kKeyHnswM, kKeyHnswEfConstruction,
          kKeyHnswEfSearch, kKeyHnswSeed, kKeyNextId]
  · simp [configuredTables, DatabaseConfig.entries, getElem?_setConfigValue]

/-- The tables of a database that was just made. -/
def newTables (c : DatabaseConfig) : Tables :=
  configuredTables (Tables.withSchemaVersion ⟨∅, ∅⟩) (c.entries 0)

theorem configured_newTables (c : DatabaseConfig) : Configured c (newTables c) :=
  configured_configuredTables c 0 _

/-- What `create` has in memory before its flush. -/
structure Created (c : DatabaseConfig) (db : Database) : Prop where
  config : db.config = c
  store : StoreSound c db.store
  slotCount : db.store.slotCount = 0
  built : builtIndex p c db.store = .ok (db.index, db.addedFor)
  nextAutoId : db.nextAutoId = 0
  dirty : db.dirty = true
  hasMetadata : db.hasMetadata = false

theorem initialise_spec (hv : c.validate = .ok ()) :
    Triple (fun d => d.files.Same newDirectory.files ∧ MetadataStore.Holds ⟨∅, ∅⟩ d.metadata)
      (initialise p env c)
      (fun db d => Created p c db ∧ d.files.Same newDirectory.files ∧
        MetadataStore.Holds (newTables c) d.metadata)
      (fun _ d => Abandoned d.disk ∧ ¬ env.sql.Quiet) := by
  obtain ⟨s, hs, hdim, hnorm, hcount, hc⟩ := VectorStore.create_eq c.normalize
    (validate_dimension hv).1 (validate_dimension hv).2
  obtain ⟨built, hb, -⟩ := builtIndex_ok p hv hc.counted
  have hfail : ∀ t : Tables, t.schemaInfo[kKeyDimension]? = none → ∀ d : Directory,
      d.files.Same newDirectory.files → d.metadata.connection.committed = t →
      Abandoned d.disk := fun t ht d hf hd =>
    ⟨hf.vectors, hf.index, by rw [Directory.disk, hd]; exact ht⟩
  unfold initialise
  rw [hs]
  refine Triple.bindEq (a := s) (S := fun d => d.files.Same newDirectory.files ∧
    MetadataStore.Holds ⟨∅, ∅⟩ d.metadata) (fun d hd => by exact ⟨rfl, hd⟩) ?_
  refine Triple.bind ((onMetadata_triple (fun f => f.Same newDirectory.files)
    (MetadataStore.openSchema_holds env.sql)).conseq (fun _ h => h) (fun _ _ h => h) ?_) fun _ => ?_
  · rintro e d ⟨hf, hd, hq⟩
    exact ⟨hfail ⟨∅, ∅⟩ (by simp) d hf hd.2, hq⟩
  refine Triple.bind ((onMetadata_triple (fun f => f.Same newDirectory.files)
    (persistConfig_holds env.sql c 0 _)).conseq (fun _ h => h) (fun _ _ h => h) ?_) fun _ => ?_
  · rintro e d ⟨hf, hd, hq⟩
    refine ⟨hfail _ ?_ d hf hd, hq⟩
    rw [getElem?_withSchemaVersion _ (by decide)]
    simp
  · rintro d ⟨hf, hd⟩
    simp only [hb, exec_bind, exec_fromExcept, exec_pure]
    exact ⟨⟨rfl, ⟨hc, hdim, hnorm⟩, hcount, hb, rfl, rfl, rfl⟩, hf, hd⟩

/-- A database is sound as soon as its configuration is in the tables. -/
theorem Created.sound {db : Database} (hdb : Created p c db) (hv : c.validate = .ok ())
    (hsized : c.Sized) {d : Directory} (hf : d.files.Same newDirectory.files)
    (hd : MetadataStore.Holds (newTables c) d.metadata) : HandleSound b ⟨d, db⟩ := by
  obtain ⟨rfl, hs, hcount, hb, -⟩ := hdb
  obtain ⟨hnone, hi, -⟩ := hf
  obtain ⟨built, hbuilt, hfits, hstep⟩ := builtIndex_ok p hv hs.consistent.counted
  have heq : built = (db.index, db.addedFor) := Except.ok.inj (hbuilt.symm.trans hb)
  subst heq
  have hfiles : FilesSound db.config b d.files :=
    ⟨fun _ h => by (rw [hnone] at h; cases h), fun _ h => by (rw [hi] at h; cases h),
      fun _ h => by (rw [hi] at h; cases h), fun _ => hi, fun _ _ _ h => by (rw [hi] at h; cases h)⟩
  have htables : d.metadata.Everywhere (Configured db.config) :=
    ⟨hd.2 ▸ configured_newTables db.config, fun _ h => by rw [hd.1.pending] at h; cases h⟩
  exact ⟨⟨hfiles, htables⟩, hv, hsized, hs, hfits, fun _ => hstep⟩

end Open

theorem HandleSound.disk {b : Prop} {h : Handle} (hh : HandleSound b h) : DiskSound b h.disk :=
  ⟨.inr ⟨h.db.config, hh.database.valid, hh.database.sized, hh.directory.files,
    hh.directory.tables.committed⟩⟩

section Runs
variable {K : Type} [BEq K] [LT K] [DecidableLT K] (p : Platform K) (env : Environment)
variable {b : Prop}

theorem exec_create {c : DatabaseConfig} (hv : c.validate = .ok ()) (d : Directory) :
    exec (create p env c) d = match exec (initialise p env c) d with
      | (.ok db, d) => (match exec (flush env) ⟨d, db⟩ with
        | (.ok _, h) => (.ok h.db, h.toDirectory)
        | (.error e, h) => (.error e, (exec (destroy env) h).2.toDirectory))
      | (.error e, d) => (.error e, d) := by
  simp only [create, exec_bind, exec_fromExcept, hv]
  rcases exec (initialise p env c) d with ⟨r, t⟩
  cases r <;> rfl

theorem create_sound {c : DatabaseConfig} (hsized : c.Sized) (hv : c.validate = .ok ()) :
    (State.ofCall (exec (create p env c) newDirectory)).Sound b := by
  have hinit := initialise_spec p env hv newDirectory ⟨.refl _, MetadataStore.holds_fresh _⟩
  rw [exec_create p env hv]
  rcases hexec : exec (initialise p env c) newDirectory with ⟨r, d⟩
  rw [hexec] at hinit
  cases r with
  | error e => exact ⟨.inl hinit.1⟩
  | ok db =>
    have hflush := flush_sound env _ (hinit.1.sound p hv hsized hinit.2.1 hinit.2.2 (b := b))
    dsimp only
    rcases hexec : exec (flush env) ⟨d, db⟩ with ⟨r, h⟩
    rw [hexec] at hflush
    cases r with
    | ok u => exact hflush
    | error e => exact (destroy_sound env h hflush).disk

/-- Where the configuration is missing, `open` throws and leaves it so. -/
theorem openDatabase_abandoned :
    Triple Fresh (openDatabase p env) (fun _ _ => False) (fun _ => Fresh) := by
  refine Triple.bind (openMetadata_fresh env) fun _ => ?_
  rintro d ⟨hf, t, ht, hs⟩
  have hnone : configOf t = .error (.corruption ("database configuration is missing '" ++
      kKeyDimension ++ "'")) := by
    rw [configOf, numberOf, ht]
    rfl
  have hread := onMetadata_triple (fun f => f.vectors = none ∧ f.index = none)
    (reads_config env.sql) d ⟨hf, hs⟩
  rw [exec_bind]
  rcases hexec : exec (onMetadata (readConfig env.sql)) d with ⟨r, u⟩
  rw [hexec] at hread
  cases r with
  | ok c =>
    have h := hread.2.1
    rw [hnone] at h
    cases h
  | error e => exact ⟨hread.1, t, ht, hread.2.1⟩

/-- The two files are those of one flush, or cannot be told from it, or the index file
is refused. -/
def Files.GoTogether (f : Files) : Prop :=
  f.torn = false ∨ f.Agree ∨ f.Refused

theorem FilesSound.same {c : DatabaseConfig} {f g : Files} (hf : FilesSound c b f) (h : g.Same f) :
    FilesSound c b g := by
  obtain ⟨hvectors, hindex, htorn⟩ := h
  refine ⟨fun bytes hb => hf.vectors bytes (hvectors ▸ hb), fun file hi => hf.index file (hindex ▸ hi),
    fun file hi => hf.kind file (hindex ▸ hi), fun hnone => hindex ▸ hf.untouched (hvectors ▸ hnone),
    fun hb ht => ?_⟩
  intro file hi
  obtain ⟨s, g', hs, hv, hrest⟩ := hf.whole hb (htorn ▸ ht) file (hindex ▸ hi)
  exact ⟨s, g', hs, hvectors ▸ hv, hrest⟩

/-- What `open` finds where an earlier process left a sound directory. -/
theorem reopen_spec {d : Disk} {c : DatabaseConfig} (hv : c.validate = .ok ()) (hsized : c.Sized)
    (hfiles : FilesSound c b d.files) (htables : Configured c d.tables) :
    ∃ (s : VectorStore) (id : VectorId), StoreSound c s ∧
      (d.files.vectors = some (writeVectorFile s) ∨ d.files.vectors = none ∧ s.slotCount = 0) ∧
      d.tables.schemaInfo[kKeyNextId]? = some (toString id.val) ∧
      Triple (fun e => e.files.Same d.files ∧ MetadataStore.Holds d.tables e.metadata)
        (openDatabase p env)
        (fun db e => e.files.Same d.files ∧
          MetadataStore.Holds d.tables.withSchemaVersion e.metadata ∧
          OpenedFrom p env d.tables c s d.files.index db ∧ db.nextAutoId = id)
        (fun _ e => e.files.Same d.files ∧ (e.metadata.connection.committed = d.tables ∨
          e.metadata.connection.committed = d.tables.withSchemaVersion) ∧ ¬ env.Quiet) := by
  obtain ⟨s, hs, hsound, hvectors⟩ := hfiles.storeOf hv
  obtain ⟨id, hid⟩ := htables.2
  refine ⟨s, id, hsound, hvectors, hid, ?_⟩
  refine (openDatabase_spec p env (F := fun f => f.Same d.files) (fun _ hf => ⟨hf.vectors, hf.index, hf.torn⟩)
    (fun f hf => hf.vectors) (fun f hf => hf.index) (htables.configOf hv hsized) (nextIdOf_eq hid) hs
    hsound.dimension hsound.consistent.counted).conseq (fun _ h => h) ?_ ?_
  · rintro db e ⟨hf, hd, hopened, -⟩
    refine ⟨hf, hd, hopened, ?_⟩
    rw [hopened.counter _ (nextIdOf_eq hid)]
    exact Fin.ofNat_val_eq_self id
  · rintro e u ⟨hf, hd, hq⟩
    exact ⟨hf, hd, fun h => hfiles.not_tooLarge s (hq h)⟩

/-- What `open` installs is sound. -/
theorem OpenedFrom.sound {t : Tables} {c : DatabaseConfig} {s : VectorStore} {f : Files}
    {db : Database} (ho : OpenedFrom p env t c s f.index db) (hv : c.validate = .ok ())
    (hsized : c.Sized) (hfiles : FilesSound c b f) (htogether : b → f.GoTogether)
    (hs : StoreSound c s)
    (hvectors : f.vectors = some (writeVectorFile s) ∨ f.vectors = none ∧ s.slotCount = 0) :
    DatabaseSound b db := by
  obtain ⟨rfl, rfl, -, -, hindex⟩ := ho
  rcases hindex with ⟨g, hg, hread⟩ | ⟨hb, -⟩
  · obtain ⟨hnodes, hstep⟩ := hfiles.readsIndex
      (fun hb => (htogether hb).elim (fun ht => .inl (hfiles.whole hb ht)) id) hs hvectors hread
    refine ⟨hv, hsized, hs, ?_, fun hb => ?_⟩
    · rw [hg]
      exact ⟨hread.1, hnodes⟩
    · rw [hg]
      exact hstep hb
  · obtain ⟨built, hbuilt, hfits, hstep⟩ := builtIndex_ok p hv hs.consistent.counted
    have heq : built = (db.index, db.addedFor) := Except.ok.inj (hbuilt.symm.trans hb)
    subst heq
    exact ⟨hv, hsized, hs, hfits, fun _ => hstep⟩

theorem ofCall_openDatabase_sound {d : Disk} (hd : DiskSound b d)
    (htogether : b → d.files.GoTogether) :
    (State.ofCall (exec (openDatabase p env) d.directory)).Sound b := by
  rcases hd.sound with hd | ⟨c, hv, hsized, hfiles, htables⟩
  · have hopen := openDatabase_abandoned p env d.directory hd.fresh
    rcases hexec : exec (openDatabase p env) d.directory with ⟨r, t⟩
    rw [hexec] at hopen
    cases r with
    | ok db => exact hopen.elim
    | error e => exact ⟨.inl hopen.abandoned⟩
  · obtain ⟨s, id, hs, hvectors, -, hopen⟩ := reopen_spec p env hv hsized hfiles htables
    have hspec := hopen d.directory ⟨⟨rfl, rfl, rfl⟩, MetadataStore.holds_fresh _⟩
    rcases hexec : exec (openDatabase p env) d.directory with ⟨r, t⟩
    rw [hexec] at hspec
    cases r with
    | ok db =>
      obtain ⟨hsame, hholds, ho, -⟩ := hspec
      have hdb := ho.sound p env hv hsized hfiles htogether hs hvectors
      have hc : db.config = c := ho.config
      refine ⟨⟨hc.symm ▸ hfiles.same hsame, ?_⟩, hdb⟩
      exact hc.symm ▸ ⟨hholds.2.symm ▸ htables.withSchemaVersion,
        fun _ h => by rw [hholds.1.pending] at h; cases h⟩
    | error e =>
      obtain ⟨hsame, hcommitted, -⟩ := hspec
      refine ⟨.inr ⟨c, hv, hsized, hfiles.same hsame, ?_⟩⟩
      show Configured c t.metadata.connection.committed
      rcases hcommitted with h | h
      · exact h ▸ htables
      · exact h ▸ htables.withSchemaVersion

theorem HandleSound.reread {h : Handle} (hh : HandleSound False h) :
    HandleSound False ⟨h.disk.directory, h.db⟩ :=
  ⟨⟨hh.directory.files, MetadataStore.everywhere_fresh hh.directory.tables.committed⟩, hh.database⟩

/-- What is opened where a sound database was. -/
theorem HandleSound.opens {disk : Disk} {db : Database}
    (hh : HandleSound False ⟨disk.directory, db⟩) {quiet : Environment} (hq : quiet.Quiet) :
    ∃ opened d, exec (openDatabase p quiet) disk.directory = (.ok opened, d) ∧
      HandleSound False ⟨d, opened⟩ ∧ d.metadata.Holds disk.tables.withSchemaVersion ∧
      opened.config = db.config ∧ (disk.files.vectors = some (writeVectorFile db.store) →
        opened.store = db.store) := by
  obtain ⟨⟨hfiles, htables⟩, hdb⟩ := hh
  obtain ⟨s, id, hstore, hheld, -, hopen⟩ := reopen_spec p quiet hdb.valid hdb.sized hfiles
    htables.committed
  obtain ⟨opened, d, hexec, -, hholds, ho, -⟩ := (hopen.conseq (fun _ h => h) (fun _ _ h => h)
    fun _ _ hf => hf.2.2 hq).returns (s := disk.directory) ⟨.refl _, MetadataStore.holds_fresh _⟩
  have hsound : (State.ofCall (exec (openDatabase p quiet) disk.directory)).Sound False :=
    ofCall_openDatabase_sound p quiet
      ⟨.inr ⟨db.config, hdb.valid, hdb.sized, hfiles, htables.committed⟩⟩ fun h => h.elim
  rw [hexec] at hsound
  refine ⟨opened, d, hexec, hsound, hholds, ho.config, fun hvectors => ?_⟩
  have hheld := hheld.resolve_right fun hn => by
    have hnone : disk.files.vectors = none := hn.1
    rw [hvectors] at hnone
    cases hnone
  rw [ho.store]
  exact writeVectorFile_injective hstore.consistent hdb.store.consistent
    (Option.some.inj (hheld.symm.trans hvectors))

/-- One event, where a database is opened only from files that go together. -/
theorem State.after_sound {s : State} (hs : s.Sound b) (event : Event)
    (htogether : event = .reopen → ∀ d, s = .closed d → b → d.files.GoTogether) :
    (s.after p env event).Sound b := by
  cases event with
  | create config sized =>
    cases s with
    | absent =>
      cases hv : config.validate with
      | error e => simp [State.after, hv, State.Sound]
      | ok u =>
        rw [State.after_create p env sized hv]
        exact create_sound p env sized hv
    | closed d => exact hs
    | opened h => exact hs
  | call op =>
    cases s with
    | absent => trivial
    | closed d => exact hs
    | opened h => exact op.run_sound p env h hs
  | crash =>
    cases s with
    | absent => trivial
    | closed d => exact hs
    | opened h => exact HandleSound.disk hs
  | close =>
    cases s with
    | absent => trivial
    | closed d => exact hs
    | opened h => exact (destroy_sound env h hs).disk
  | reopen =>
    cases s with
    | absent => trivial
    | closed d => exact ofCall_openDatabase_sound p env hs (htogether rfl d rfl)
    | opened h => exact hs

/-- However the events end, every state reached is sound. -/
theorem reachable_sound {allowed : Event → Environment → State → Prop} {s : State}
    (hr : (runs p allowed).Reachable s) : s.Sound False := by
  refine hr.invariant (P := State.Sound False) ?_ ?_
  · rintro _ rfl
    trivial
  · rintro s _ hs ⟨event, env, -, rfl⟩
    exact State.after_sound p env hs event fun _ _ _ h => h.elim

end Runs

end VectorDb.Db
