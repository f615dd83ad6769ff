import VectorDb.Db.DatabaseSound

/-!
`create` and `open`: the configuration comes back from its text, the store from its
file, and the index from its file or from the store.
-/
set_option autoImplicit false

namespace VectorDb.Db

open VectorDb.Lib VectorDb.Storage VectorDb.Index Throwing

/-- A number of the configuration in the tables. -/
def numberOf (t : Tables) (key : String) : Except Error Nat := parseU64 t.schemaInfo[key]? key

/-- A name of the configuration in the tables. -/
def nameOf {α : Type} (t : Tables) (key what : String) (parse : String → Option α) :
    Except Error α :=
  match t.schemaInfo[key]?.bind parse with
  | some value => .ok value
  | none => .error (.corruption ("database configuration has an unknown " ++ what ++ " '" ++
      t.schemaInfo[key]?.getD "<missing>" ++ "'"))

/-- The configuration in the tables. -/
def configOf (t : Tables) : Except Error DatabaseConfig := do
  let dimension ← numberOf t kKeyDimension
  let metric ← nameOf t kKeyMetric "metric" parseMetric
  let indexType ← nameOf t kKeyIndexType "index type" parseIndexType
  let m ← numberOf t kKeyHnswM
  let efConstruction ← numberOf t kKeyHnswEfConstruction
  let efSearch ← numberOf t kKeyHnswEfSearch
  let seed ← numberOf t kKeyHnswSeed
  let config : DatabaseConfig :=
    ⟨dimension % 4294967296, metric, indexType,
      ⟨m, efConstruction, efSearch, BitVec.ofNat 64 seed⟩,
      t.schemaInfo[kKeyNormalize]?.getD "0" == "1"⟩
  config.validate
  return config

/-- The counter in the tables. -/
def nextIdOf (t : Tables) : Except Error Nat :=
  parseU64 (some (t.schemaInfo[kKeyNextId]?.getD "0")) kKeyNextId

section Config
variable {c : DatabaseConfig} {t : Tables}

theorem reads_number (faults : Faults) (key : String) :
    MetadataStore.Reads faults t (readNumber faults key) (numberOf t key) :=
  (MetadataStore.reads_query faults fun t => t.schemaInfo[key]?).bind fun text =>
    MetadataStore.reads_fromExcept faults (parseU64 text key)

theorem reads_name {α : Type} (faults : Faults) (key what : String) (parse : String → Option α) :
    MetadataStore.Reads faults t (readName faults key what parse) (nameOf t key what parse) :=
  (MetadataStore.reads_query faults fun t => t.schemaInfo[key]?).bind fun text =>
    MetadataStore.reads_fromExcept faults (match text.bind parse with
      | some value => .ok value
      | none => .error (.corruption ("database configuration has an unknown " ++ what ++ " '" ++
          text.getD "<missing>" ++ "'")))

theorem reads_config (faults : Faults) :
    MetadataStore.Reads faults t (readConfig faults) (configOf t) := by
  refine (reads_number faults kKeyDimension).bind fun dimension => ?_
  refine (reads_name faults kKeyMetric "metric" parseMetric).bind fun metric => ?_
  refine (reads_name faults kKeyIndexType "index type" parseIndexType).bind fun indexType => ?_
  refine MetadataStore.Reads.bind (r := .ok t.schemaInfo[kKeyNormalize]?)
    (MetadataStore.reads_query faults fun t => t.schemaInfo[kKeyNormalize]?)
    (g := fun normalize => do
      let m ← numberOf t kKeyHnswM
      let efConstruction ← numberOf t kKeyHnswEfConstruction
      let efSearch ← numberOf t kKeyHnswEfSearch
      let seed ← numberOf t kKeyHnswSeed
      let config : DatabaseConfig :=
        ⟨dimension % 4294967296, metric, indexType,
          ⟨m, efConstruction, efSearch, BitVec.ofNat 64 seed⟩, normalize.getD "0" == "1"⟩
      config.validate
      return config) fun normalize => ?_
  refine (reads_number faults kKeyHnswM).bind fun m => ?_
  refine (reads_number faults kKeyHnswEfConstruction).bind fun efConstruction => ?_
  refine (reads_number faults kKeyHnswEfSearch).bind fun efSearch => ?_
  refine (reads_number faults kKeyHnswSeed).bind fun seed => ?_
  refine (MetadataStore.reads_fromExcept faults _).bind fun _ => ?_
  exact MetadataStore.reads_fromExcept faults (.ok _)

theorem reads_nextId (faults : Faults) :
    MetadataStore.Reads faults t (do
      fromExcept (parseU64 (some ((← MetadataStore.getConfig faults kKeyNextId).getD "0"))
        kKeyNextId)) (nextIdOf t) :=
  (MetadataStore.reads_query faults fun t => t.schemaInfo[kKeyNextId]?).bind fun text =>
    MetadataStore.reads_fromExcept faults (parseU64 (some (text.getD "0")) kKeyNextId)

/-- What `create` wrote is the configuration it was given. -/
theorem Configured.configOf (h : Configured c t) (hv : c.validate = .ok ()) (hs : c.Sized) :
    configOf t = .ok c := by
  obtain ⟨hm, hc, he⟩ := hs
  have hdim : c.dimension ≤ kMaxDimension := by
    unfold DatabaseConfig.validate at hv
    split at hv
    · cases hv
    next h => exact Nat.le_of_not_lt fun hlt => h (.inr hlt)
  have hmax : kMaxDimension < 4294967296 := by decide
  have hentry : ∀ key value, (key, value) ∈ c.entries 0 → key ≠ kKeyNextId →
      t.schemaInfo[key]? = some value := fun key value hmem hne => h.1 (key, value) hmem hne
  have hnumber : ∀ key n, n < 18446744073709551616 → (key, toString n) ∈ c.entries 0 →
      key ≠ kKeyNextId → numberOf t key = .ok n := fun key n hn hmem hne => by
    rw [numberOf, hentry key _ hmem hne, parseU64, stoull_toString hn]
  have hnormalize : ((some (if c.normalize then "1" else "0")).getD "0" == "1") = c.normalize := by
    cases c.normalize <;> rfl
  have hmetric : nameOf t kKeyMetric "metric" parseMetric = .ok c.metric := by
    rw [nameOf, hentry _ (metricName c.metric) (by simp [DatabaseConfig.entries]) (by decide),
      Option.bind_some, parseMetric_metricName]
  have htype : nameOf t kKeyIndexType "index type" parseIndexType = .ok c.indexType := by
    rw [nameOf, hentry _ (indexTypeName c.indexType) (by simp [DatabaseConfig.entries]) (by decide),
      Option.bind_some, parseIndexType_indexTypeName]
  unfold Db.configOf
  rw [hnumber kKeyDimension c.dimension (hdim.trans_lt (by decide))
      (by simp [DatabaseConfig.entries]) (by decide), hmetric, htype,
    hnumber kKeyHnswM _ hm (by simp [DatabaseConfig.entries]) (by decide),
    hnumber kKeyHnswEfConstruction _ hc (by simp [DatabaseConfig.entries]) (by decide),
    hnumber kKeyHnswEfSearch _ he (by simp [DatabaseConfig.entries]) (by decide),
    hnumber kKeyHnswSeed _ c.hnsw.seed.isLt (by simp [DatabaseConfig.entries]) (by decide),
    hentry kKeyNormalize (if c.normalize then "1" else "0") (by simp [DatabaseConfig.entries])
      (by decide)]
  have hsame : (⟨c.dimension % 4294967296, c.metric, c.indexType,
      ⟨c.hnsw.m, c.hnsw.efConstruction, c.hnsw.efSearch, BitVec.ofNat 64 c.hnsw.seed.toNat⟩,
      (some (if c.normalize then "1" else "0")).getD "0" == "1"⟩ : DatabaseConfig) = c := by
    rw [hnormalize, Nat.mod_eq_of_lt (hdim.trans_lt hmax), BitVec.ofNat_toNat, BitVec.setWidth_eq]
  show (do
    let config : DatabaseConfig := ⟨c.dimension % 4294967296, c.metric, c.indexType,
      ⟨c.hnsw.m, c.hnsw.efConstruction, c.hnsw.efSearch, BitVec.ofNat 64 c.hnsw.seed.toNat⟩,
      (some (if c.normalize then "1" else "0")).getD "0" == "1"⟩
    config.validate
    return config : Except Error DatabaseConfig) = .ok c
  rw [hsame]
  dsimp only
  rw [hv]
  rfl

theorem nextIdOf_eq {id : VectorId} (h : t.schemaInfo[kKeyNextId]? = some (toString id.val)) :
    nextIdOf t = .ok id.val := by
  rw [nextIdOf, h, Option.getD_some, parseU64, stoull_toString id.isLt]

theorem validate_of_configOf (h : configOf t = .ok c) : c.validate = .ok () := by
  unfold Db.configOf at h
  obtain ⟨_, -, h⟩ := Except.bind_eq_ok.mp h
  obtain ⟨_, -, h⟩ := Except.bind_eq_ok.mp h
  obtain ⟨_, -, h⟩ := Except.bind_eq_ok.mp h
  obtain ⟨_, -, h⟩ := Except.bind_eq_ok.mp h
  obtain ⟨_, -, h⟩ := Except.bind_eq_ok.mp h
  obtain ⟨_, -, h⟩ := Except.bind_eq_ok.mp h
  obtain ⟨_, -, h⟩ := Except.bind_eq_ok.mp h
  obtain ⟨_, hv, h⟩ := Except.bind_eq_ok.mp h
  cases h
  exact hv

end Config

theorem validate_dimension {c : DatabaseConfig} (hv : c.validate = .ok ()) :
    c.dimension ≠ 0 ∧ c.dimension ≤ kMaxDimension := by
  unfold DatabaseConfig.validate at hv
  split at hv
  · cases hv
  next h => exact ⟨fun h0 => h (.inl h0), Nat.le_of_not_lt fun hlt => h (.inr hlt)⟩

/-- The store in vectors.bin, or an empty one where there is no such file. -/
def storeOf (c : DatabaseConfig) (vectors : Option Bytes) : Except Error VectorStore :=
  match vectors with
  | none => VectorStore.create c.dimension c.normalize
  | some bytes => readVectorFile bytes

/-- index.hnsw announces more upper links than a vector may hold, and nothing else is
wrong with its header. -/
def TooLarge (c : DatabaseConfig) (s : VectorStore) (index : Option IndexFile) : Prop :=
  c.indexType = .hnsw ∧ ∃ file, index = some file ∧
    Oversized file.bytes s.slotCount c.metric c.dimension

/-- The graph comes out of index.hnsw. -/
def ReadsIndex (c : DatabaseConfig) (s : VectorStore) (index : Option IndexFile) (g : HnswIndex)
    (ids : List VectorId) : Prop :=
  c.indexType = .hnsw ∧ ∃ file, index = some file ∧ ids = file.addedFor ∧
    readHnswFile file.bytes s.slotCount c.metric c.dimension = .ok g

section Load
variable (env : Environment) {c : DatabaseConfig} {P : Directory → Prop}

theorem loadStore_spec (htick : ∀ d, P d → P { d with files := d.files.tick }) {v : Option Bytes}
    {s : VectorStore} (hv : ∀ d, P d → d.files.vectors = v) (hs : storeOf c v = .ok s)
    (hdim : s.dimension = c.dimension) :
    Triple P (loadStore env c) (fun r d => r = s ∧ P d) (fun _ d => ¬ env.Quiet ∧ P d) := by
  intro d hd
  have hvectors := hv d hd
  cases v with
  | none =>
    have hload : exec (loadStore env c) d = (.ok s, d) := by
      simp only [storeOf] at hs
      simp [loadStore, exec_bind, hvectors, hs, hdim]
    rw [hload]
    exact ⟨rfl, hd⟩
  | some bytes =>
    have hmap := mapFile_spec env htick bytes d hd
    rcases hexec : exec (mapFile env bytes) d with ⟨r, t⟩
    rw [hexec] at hmap
    cases r with
    | error e =>
      have hload : exec (loadStore env c) d = (.error e, t) := by
        simp [loadStore, exec_bind, hvectors, hexec]
      rw [hload]
      exact hmap.2
    | ok read =>
      obtain ⟨rfl, ht⟩ := hmap
      have hload : exec (loadStore env c) d = (.ok s, t) := by
        simp only [storeOf] at hs
        simp [loadStore, exec_bind, hvectors, hexec, hs, hdim]
      rw [hload]
      exact ⟨rfl, ht⟩

/-- The index that `open` takes from its file, or that it leaves to a rebuild. -/
theorem loadIndex_spec (htick : ∀ d, P d → P { d with files := d.files.tick })
    {index : Option IndexFile} (hi : ∀ d, P d → d.files.index = index) (s : VectorStore) :
    Triple P (loadIndex env c s)
      (fun r d => P d ∧ (∀ g ids, r = some (g, ids) → ReadsIndex c s index g ids) ∧
        (r = none → env.Quiet → ∀ g ids, ¬ ReadsIndex c s index g ids) ∧
        (env.Quiet → ¬ TooLarge c s index))
      (fun _ d => P d ∧ TooLarge c s index) := by
  intro d hd
  have hindex := hi d hd
  cases htype : c.indexType with
  | bruteForce =>
    have hload : exec (loadIndex env c s) d = (.ok none, d) := by
      simp [loadIndex, exec_map, htype]
    rw [hload]
    refine ⟨hd, fun _ _ h => (nomatch h), fun _ _ g ids h => ?_, fun _ h => ?_⟩
    · have hkind := h.1
      rw [htype] at hkind
      cases hkind
    · have hkind := h.1
      rw [htype] at hkind
      cases hkind
  | hnsw =>
    cases index with
    | none =>
      have hload : exec (loadIndex env c s) d = (.ok none, d) := by
        simp [loadIndex, exec_bind, htype, hindex]
      rw [hload]
      refine ⟨hd, fun _ _ h => (nomatch h), fun _ _ g ids h => ?_, fun _ h => ?_⟩
      · obtain ⟨-, _, h, -⟩ := h
        cases h
      · obtain ⟨-, _, h, -⟩ := h
        cases h
    | some file =>
      have hmap := mapFile_spec env htick file.bytes d hd
      rcases hexec : exec (mapFile env file.bytes) d with ⟨r, t⟩
      rw [hexec] at hmap
      cases r with
      | error e =>
        obtain ⟨hio, hq, ht⟩ := hmap
        have hload : exec (loadIndex env c s) d = (.ok none, t) := by
          simp [loadIndex, exec_bind, exec_tryCatch, htype, hindex, hexec, hio]
        rw [hload]
        exact ⟨ht, fun _ _ h => (nomatch h), fun _ h => absurd h hq, fun h => absurd h hq⟩
      | ok read =>
        obtain ⟨rfl, ht⟩ := hmap
        have hnone {e : Error} (hread : readHnswFile file.bytes s.slotCount c.metric c.dimension =
            .error e) (hcatch : (e.isCorruption || e.isIo) = true) :
            exec (loadIndex env c s) d = (.ok none, t) := by
          rw [Bool.or_eq_true] at hcatch
          simp [loadIndex, exec_bind, exec_tryCatch, exec_map, htype, hindex, hexec, hread, hcatch]
        cases hread : readHnswFile file.bytes s.slotCount c.metric c.dimension with
        | ok g =>
          have hload : exec (loadIndex env c s) d = (.ok (some (g, file.addedFor)), t) := by
            simp [loadIndex, exec_bind, exec_tryCatch, exec_map, htype, hindex, hexec, hread]
          rw [hload]
          refine ⟨ht, fun _ _ h => ?_, fun h => (nomatch h), fun _ h => ?_⟩
          · cases h
            exact ⟨htype, file, rfl, rfl, hread⟩
          · obtain ⟨-, file', hfile, hover⟩ := h
            cases hfile
            rw [readHnswFile_of_oversized hover] at hread
            cases hread
        | error e =>
          by_cases hover : Oversized file.bytes s.slotCount c.metric c.dimension
          · have he : e = .foreign "cannot create std::vector larger than max_size()" :=
              Except.error.inj (hread.symm.trans (readHnswFile_of_oversized hover))
            subst he
            have hload : exec (loadIndex env c s) d =
                (.error (.foreign "cannot create std::vector larger than max_size()"), t) := by
              simp [loadIndex, exec_bind, exec_tryCatch, exec_map, htype, hindex, hexec, hread,
                Error.isCorruption, Error.isIo]
            rw [hload]
            exact ⟨ht, htype, file, rfl, hover⟩
          · rw [hnone hread (by rw [(readHnswFile_eq_error hread).resolve_right hover]; rfl)]
            refine ⟨ht, fun _ _ h => (nomatch h), fun _ _ g ids h => ?_, fun _ h => ?_⟩
            · obtain ⟨-, file', hfile, -, hok⟩ := h
              cases hfile
              rw [hread] at hok
              cases hok
            · obtain ⟨-, file', hfile, hover'⟩ := h
              cases hfile
              exact hover hover'

end Load

/-- What `open` makes of the tables, the store and the index file. -/
structure OpenedFrom {K : Type} [BEq K] [LT K] [DecidableLT K] (p : Platform K)
    (env : Environment) (t : Tables) (c : DatabaseConfig) (s : VectorStore)
    (index : Option IndexFile) (db : Database) : Prop where
  config : db.config = c
  store : db.store = s
  counter : ∀ n, nextIdOf t = .ok n → db.nextAutoId = Fin.ofNat 18446744073709551616 n
  hasMetadata : db.hasMetadata = decide (0 < t.metadata.size)
  index : (∃ g, db.index = .hnsw g ∧ ReadsIndex c s index g db.addedFor) ∨
    builtIndex p c s = .ok (db.index, db.addedFor) ∧
      (env.Quiet → ∀ g ids, ¬ ReadsIndex c s index g ids)

section Open
variable {K : Type} [BEq K] [LT K] [DecidableLT K] (p : Platform K) (env : Environment)
variable {c : DatabaseConfig} {t : Tables}

theorem configOf_withSchemaVersion : configOf t.withSchemaVersion = configOf t := by
  simp [configOf, numberOf, nameOf, getElem?_withSchemaVersion, kKeyDimension, kKeyMetric,
    kKeyIndexType, kKeyNormalize, kKeyHnswM, kKeyHnswEfConstruction, kKeyHnswEfSearch, kKeyHnswSeed]

theorem nextIdOf_withSchemaVersion : nextIdOf t.withSchemaVersion = nextIdOf t := by
  simp [nextIdOf, getElem?_withSchemaVersion, kKeyNextId]

@[simp] theorem metadata_withSchemaVersion : t.withSchemaVersion.metadata = t.metadata := by
  unfold Tables.withSchemaVersion
  split <;> rfl

theorem onMetadata_triple {α : Type} {x : MetadataStore.Call α} {P : MetadataStore → Prop}
    {Q : α → MetadataStore → Prop} {E : Error → MetadataStore → Prop} (F : Files → Prop)
    (hx : Triple P x Q E) :
    Triple (fun d => F d.files ∧ P d.metadata) (onMetadata x)
      (fun a d => F d.files ∧ Q a d.metadata) (fun e d => F d.files ∧ E e d.metadata) := by
  rintro d ⟨hf, hd⟩
  have h := hx d.metadata hd
  rw [exec_onMetadata]
  rcases hexec : exec x d.metadata with ⟨r, s⟩
  rw [hexec] at h
  cases r <;> exact ⟨hf, h⟩

/-- How `open` fails: the files are as they were, and an access failed or the index
file is too large. -/
def OpenFails (F : Files → Prop) (t : Tables) (c : DatabaseConfig) (s : VectorStore)
    (index : Option IndexFile) (d : Directory) : Prop :=
  F d.files ∧ (d.metadata.connection.committed = t ∨
    d.metadata.connection.committed = t.withSchemaVersion) ∧ (env.Quiet → TooLarge c s index)

/-- A step of `open` that reads the tables. -/
theorem open_reads {α β : Type} {F : Files → Prop} {x : MetadataStore.Call α} {a : α}
    {f : α → DirectoryCall β} {Q : β → Directory → Prop} {s : VectorStore}
    {index : Option IndexFile}
    (hx : MetadataStore.Reads env.sql t.withSchemaVersion x (.ok a))
    (hf : Triple (fun d => F d.files ∧ MetadataStore.Holds t.withSchemaVersion d.metadata) (f a) Q
      (fun _ => OpenFails env F t c s index)) :
    Triple (fun d => F d.files ∧ MetadataStore.Holds t.withSchemaVersion d.metadata)
      (onMetadata x >>= f) Q (fun _ => OpenFails env F t c s index) := by
  refine Triple.bindEq (a := a) ((onMetadata_triple F hx).conseq (fun _ h => h) ?_ ?_) hf
  · rintro r d ⟨hf, hr, hd⟩
    exact ⟨(Except.ok.inj hr).symm, hf, hd⟩
  · rintro e d ⟨hf, hd, hq⟩
    exact ⟨hf, .inr hd.2, fun h => nomatch hq h.1⟩

theorem openDatabase_spec {F : Files → Prop} (htick : ∀ f, F f → F f.tick) {v : Option Bytes}
    {index : Option IndexFile} (hv : ∀ f, F f → f.vectors = v) (hi : ∀ f, F f → f.index = index)
    (hc : configOf t = .ok c) {n : Nat} (hn : nextIdOf t = .ok n) {s : VectorStore}
    (hs : storeOf c v = .ok s) (hdim : s.dimension = c.dimension) (hcount : s.Counted) :
    Triple (fun d => F d.files ∧ MetadataStore.Holds t d.metadata) (openDatabase p env)
      (fun db d => F d.files ∧ MetadataStore.Holds t.withSchemaVersion d.metadata ∧
        OpenedFrom p env t c s index db ∧ (env.Quiet → ¬ TooLarge c s index))
      (fun _ => OpenFails env F t c s index) := by
  have hvalid := validate_of_configOf hc
  refine Triple.bind ((onMetadata_triple F (MetadataStore.openSchema_holds env.sql)).conseq (fun _ h => h)
    (fun _ _ h => h) ?_) fun _ => ?_
  · rintro e d ⟨hf, hd, hq⟩
    exact ⟨hf, .inl hd.2, fun h => absurd h.1 hq⟩
  refine open_reads env (a := c) ?_ ?_
  · rw [← hc, ← configOf_withSchemaVersion]
    exact reads_config env.sql
  refine Triple.bindEq (a := s) (S := fun d => F d.files ∧
    MetadataStore.Holds t.withSchemaVersion d.metadata) ((loadStore_spec env
      (fun d hd => ⟨htick _ hd.1, hd.2⟩) (fun d hd => hv _ hd.1) hs hdim).conseq (fun _ h => h)
      (fun _ _ h => h) ?_) ?_
  · rintro e d ⟨hq, hf, hd⟩
    exact ⟨hf, .inr hd.2, fun h => absurd h hq⟩
  refine open_reads env (a := n) ?_ ?_
  · rw [← hn, ← nextIdOf_withSchemaVersion]
    exact reads_nextId env.sql
  refine open_reads env (a := t.metadata.size) ?_ ?_
  · rw [← metadata_withSchemaVersion]
    exact MetadataStore.reads_query env.sql fun t => t.metadata.size
  refine Triple.bind ((loadIndex_spec env (fun d hd => ⟨htick _ hd.1, hd.2⟩)
    (fun d hd => hi _ hd.1) s).conseq (fun _ h => h) (fun _ _ h => h) ?_) fun loaded => ?_
  · rintro e d ⟨⟨hf, hd⟩, hlarge⟩
    exact ⟨hf, .inr hd.2, fun _ => hlarge⟩
  rintro d ⟨⟨hf, hd⟩, hread, hnone, hq⟩
  have hcounter : ∀ m, nextIdOf t = .ok m →
      Fin.ofNat 18446744073709551616 n = Fin.ofNat 18446744073709551616 m := fun m hm => by
    rw [Except.ok.inj (hn.symm.trans hm)]
  cases loaded with
  | some taken =>
    obtain ⟨g, ids⟩ := taken
    exact ⟨hf, hd, ⟨rfl, rfl, hcounter, rfl, .inl ⟨g, rfl, hread g ids rfl⟩⟩, hq⟩
  | none =>
    obtain ⟨built, hb, -⟩ := builtIndex_ok p hvalid hcount
    simp only [exec_bind, hb, exec_fromExcept]
    exact ⟨hf, hd, ⟨rfl, rfl, hcounter, rfl, .inr ⟨hb, hnone rfl⟩⟩, hq⟩

end Open

end VectorDb.Db
