import VectorDb.Db.Operations

/-!
A database that is flushed and opened again answers as it did: what is not dirty is
in the files, and what the tables hold is all that the caches of `open` are made of.
-/
set_option autoImplicit false

namespace VectorDb.Db

open VectorDb.Lib VectorDb.Storage VectorDb.Index Throwing

/-- What is in memory agrees with the tables, and where nothing is dirty with
vectors.bin and the counter in the tables. -/
structure Noted (f : Files) (t : Tables) (db : Database) : Prop where
  flagged : db.hasMetadata = false → ∀ id, t.rows id = ∅
  written : db.dirty = false → f.vectors = some (writeVectorFile db.store) ∧
    t.schemaInfo[kKeyNextId]? = some (toString db.nextAutoId.val)

def Handle.Settled (h : Handle) : Prop :=
  ∃ t, h.metadata.Holds t ∧ Noted h.files t h.db

/-- The answers of one handle are those of another. -/
structure SameAnswers {K : Type} [BEq K] [LT K] [DecidableLT K] (p : Platform K)
    (h h' : Handle) : Prop where
  dimension : h'.db.config.dimension = h.db.config.dimension
  metric : h'.db.config.metric = h.db.config.metric
  indexType : h'.db.config.indexType = h.db.config.indexType
  normalize : h'.db.config.normalize = h.db.config.normalize
  allIds : h'.db.allIds = h.db.allIds
  nextAutoId : h'.db.nextAutoId = h.db.nextAutoId
  getVector : ∀ env : Environment, env.Quiet → ∀ id,
    (exec (getVector env id) h').1 = (exec (getVector env id) h).1
  exactSearch : ∀ env : Environment, env.Quiet → ∀ (query : FloatVector) (options : QueryOptions),
    options.exact = true →
      (exec (search p env query options) h').1 = (exec (search p env query options) h).1

section Noted
variable {f g : Files} {t : Tables} {db : Database}

theorem Noted.same (hn : Noted f t db) (h : g.Same f) : Noted g t db :=
  ⟨hn.flagged, fun hd => ⟨h.vectors ▸ (hn.written hd).1, (hn.written hd).2⟩⟩

theorem At.settled {h : Handle} (hh : At f t db h) (hn : Noted f t db) : h.Settled :=
  ⟨t, hh.tables, by rw [hh.db]; exact hn.same hh.files⟩

/-- What is dirty has to agree with the tables only. -/
theorem Noted.dirtied (hn : Noted f t db) {u : Tables} {e : Database} (hdirty : e.dirty = true)
    (hflagged : e.hasMetadata = false → db.hasMetadata = false ∧ ∀ id, t.rows id = ∅ → u.rows id = ∅) :
    Noted f u e := by
  refine ⟨fun hf id => ?_, fun hd => ?_⟩
  · obtain ⟨hflag, hrows⟩ := hflagged hf
    exact hrows id (hn.flagged hflag id)
  · rw [hdirty] at hd
    cases hd

theorem boundRows_of_isEmpty {m : Metadata} (hm : m.isEmpty = true) : boundRows m = ∅ := by
  rw [Std.ExtTreeMap.isEmpty_iff.mp hm]
  exact Std.ExtTreeMap.ext_getElem? fun _ => by simp [boundRows]

/-- A map without entries puts no rows in the tables. -/
theorem rows_replaceRows_of_isEmpty {m : Metadata} (hm : m.isEmpty = true) {id i : VectorId}
    (hi : t.rows i = ∅) : (t.replaceRows id m.toList).rows i = ∅ := by
  rw [Tables.rows_replaceRows, boundRows_of_isEmpty hm, hi, ite_self]

theorem Noted.flushed (hn : Noted f t db) : Noted (f.flushed db)
    (t.setConfigValue kKeyNextId (toString db.nextAutoId.val)) { db with dirty := false } := by
  refine ⟨hn.flagged, fun _ => ⟨f.flushed_vectors db, ?_⟩⟩
  rw [getElem?_setConfigValue, if_pos rfl]

end Noted

section Answers
variable {K : Type} [BEq K] [LT K] [DecidableLT K] (p : Platform K) (env : Environment)
variable {f : Files} {t : Tables} {db : Database}

/-- What the loop over the candidates makes of them, given the rows. -/
def collected (metric : Metric) (s : VectorStore) (options : QueryOptions)
    (metadata : VectorId → Metadata) : List (Candidate K) → List QueryResult → List QueryResult
  | [], results => results
  | c :: candidates, results =>
    if options.k ≤ results.length then results
    else
      let id := s.vectorId c.localId
      let m := if !options.filter.isEmpty || options.includeMetadata then metadata id else ∅
      if options.filter.matches m then
        collected metric s options metadata candidates
          (results ++ [⟨id, p.scoreFromRankKey metric c.key, m⟩])
      else collected metric s options metadata candidates results

/-- The loop gives what the rows make of the candidates; where the flag says that there
are no rows, they are not looked at. -/
theorem collectResults_reads (db : Database) {P : Directory → Prop}
    {E : Error → Directory → Prop} {metadata : VectorId → Metadata}
    (hget : ∀ id, Triple P (onMetadata (MetadataStore.get env.sql id))
      (fun r d => r = metadata id ∧ P d) E)
    (options : QueryOptions) (candidates : List (Candidate K)) (results : List QueryResult) :
    Triple P (collectResults p env db options candidates results)
      (fun r d => r = collected p db.config.metric db.store options
          (fun id => if db.hasMetadata then metadata id else ∅) candidates results ∧ P d) E := by
  induction candidates generalizing results with
  | nil => exact Triple.pure fun d hd => ⟨rfl, hd⟩
  | cons c candidates ih =>
    unfold collectResults collected
    by_cases hk : options.k ≤ results.length
    · simp only [hk, if_true]
      exact Triple.pure fun d hd => ⟨rfl, hd⟩
    simp only [hk, if_false]
    cases hm : db.hasMetadata with
    | false =>
      simp only [hm, Bool.false_and, Bool.false_eq_true, if_false, ite_self] at ih ⊢
      cases hfilter : options.filter.isEmpty with
      | true =>
        have hmatches : options.filter.matches ∅ = true := by
          rw [List.isEmpty_iff.mp hfilter]
          rfl
        simp only [hmatches, if_true]
        exact ih _
      | false =>
        simp only [Filter.matches_empty hfilter, Bool.false_eq_true, if_false]
        exact ih _
    | true =>
      simp only [hm, Bool.true_and, if_true] at ih ⊢
      cases hlook : !options.filter.isEmpty || options.includeMetadata with
      | false =>
        rw [Bool.or_eq_false_iff, Bool.not_eq_false'] at hlook
        have hmatches : options.filter.matches ∅ = true := by
          rw [List.isEmpty_iff.mp hlook.1]
          rfl
        simp only [hlook.1, hmatches, Bool.false_eq_true, if_true, if_false]
        exact ih _
      | true =>
        simp only [if_true]
        refine Triple.bindEq (a := metadata (db.store.vectorId c.localId)) (S := P)
          (hget (db.store.vectorId c.localId)) ?_
        split
        · exact ih _
        · exact ih _

/-- The flag spares the tables only lookups that would find nothing. -/
theorem collectResults_spec (hflagged : db.hasMetadata = false → ∀ id, t.rows id = ∅)
    (options : QueryOptions) (candidates : List (Candidate K)) (results : List QueryResult) :
    Triple (fun d => d.files.Same f ∧ MetadataStore.Holds t d.metadata)
      (collectResults p env db options candidates results)
      (fun r d => r = collected p db.config.metric db.store options
          (fun id => MetadataStore.metadataOf (t.rows id)) candidates results ∧
        d.files.Same f ∧ MetadataStore.Holds t d.metadata)
      (fun _ d => (d.files.Same f ∧ MetadataStore.Holds t d.metadata) ∧ ¬ env.sql.Quiet) := by
  have hget : ∀ id, Triple (fun d => d.files.Same f ∧ MetadataStore.Holds t d.metadata)
      (onMetadata (MetadataStore.get env.sql id))
      (fun r d => r = MetadataStore.metadataOf (t.rows id) ∧ d.files.Same f ∧
        MetadataStore.Holds t d.metadata)
      (fun _ d => (d.files.Same f ∧ MetadataStore.Holds t d.metadata) ∧ ¬ env.sql.Quiet) :=
    fun id => (onMetadata_triple (fun g => g.Same f) (MetadataStore.get_holds env.sql id
      (c := t))).conseq (fun _ h => h) (fun r d h => ⟨h.2.1, h.1, h.2.2⟩)
        fun e d h => ⟨⟨h.1, h.2.1⟩, h.2.2⟩
  have hseen : (fun id => if db.hasMetadata then MetadataStore.metadataOf (t.rows id) else ∅) =
      fun id => MetadataStore.metadataOf (t.rows id) := by
    funext id
    cases hm : db.hasMetadata with
    | true => rfl
    | false => simp [hflagged hm, MetadataStore.metadataOf_empty]
  have hreads := collectResults_reads p env db hget options candidates results
  rwa [hseen] at hreads

/-- What `search` returns, given the rows. -/
def searched (config : DatabaseConfig) (s : VectorStore) (metadata : VectorId → Metadata)
    (candidates : Except Error (List (Candidate K))) (query : FloatVector)
    (options : QueryOptions) : Except Error (List QueryResult) :=
  if options.k = 0 then .error (.invalidArgument "search requires k >= 1")
  else do
    validateVector query config.dimension
    return collected p config.metric s options metadata (← candidates) []

theorem search_spec (hflagged : db.hasMetadata = false → ∀ id, t.rows id = ∅)
    (query : FloatVector) (options : QueryOptions) :
    Triple (At f t db) (search p env query options)
      (fun r h => .ok r = searched p db.config db.store
        (fun id => MetadataStore.metadataOf (t.rows id)) (searchCandidates p db query options) query
          options ∧ At f t db h)
      (fun e h => At f t db h ∧ (env.sql.Quiet → .error e = searched p db.config db.store
        (fun id => MetadataStore.metadataOf (t.rows id)) (searchCandidates p db query options) query
          options)) := by
  rintro h ⟨hf, ht, rfl⟩
  unfold search searched
  by_cases hk : options.k = 0
  · simp only [hk, if_true, exec_bind, exec_throw]
    exact ⟨⟨hf, ht, rfl⟩, fun _ => trivial⟩
  simp only [hk, if_false, exec_bind, exec_get, exec_fromExcept]
  cases hv : validateVector query h.db.config.dimension with
  | error e => exact ⟨⟨hf, ht, rfl⟩, fun _ => rfl⟩
  | ok u =>
    cases hc : searchCandidates p h.db query options with
    | error e => exact ⟨⟨hf, ht, rfl⟩, fun _ => rfl⟩
    | ok candidates =>
      have hspec := collectResults_spec p env hflagged options candidates [] (f := f)
        h.toDirectory ⟨hf, ht⟩
      simp only [exec_onDirectory]
      rcases hexec : exec (collectResults p env h.db options candidates []) h.toDirectory with ⟨r, d⟩
      rw [hexec] at hspec
      cases r with
      | ok r =>
        obtain ⟨rfl, hf, ht⟩ := hspec
        exact ⟨rfl, hf, ht, rfl⟩
      | error e =>
        obtain ⟨⟨hf, ht⟩, hq⟩ := hspec
        exact ⟨⟨hf, ht, rfl⟩, fun h => absurd h hq⟩

/-- An exact search looks at the store alone. -/
theorem searchCandidates_exact {d e : Database} (hconfig : e.config = d.config)
    (hstore : e.store = d.store) (query : FloatVector) {options : QueryOptions}
    (hexact : options.exact = true) :
    searchCandidates p e query options = searchCandidates p d query options := by
  simp only [searchCandidates, hconfig, hstore, hexact, Bool.true_or, if_true]

/-- Two handles with one store and the same rows answer alike. -/
theorem sameAnswers {h h' : Handle} {t u : Tables} (ht : h.metadata.Holds t)
    (hu : h'.metadata.Holds u) (hflag : h.db.hasMetadata = false → ∀ id, t.rows id = ∅)
    (hflag' : h'.db.hasMetadata = false → ∀ id, u.rows id = ∅) (hrows : ∀ id, u.rows id = t.rows id)
    (hconfig : h'.db.config = h.db.config) (hstore : h'.db.store = h.db.store)
    (hnext : h'.db.nextAutoId = h.db.nextAutoId) : SameAnswers p h h' := by
  have hat := at_of_holds ht h.db
  have hat' := at_of_holds hu h'.db
  refine ⟨by rw [hconfig], by rw [hconfig], by rw [hconfig], by rw [hconfig],
    by rw [Database.allIds, hstore, Database.allIds], hnext, fun env hq id => ?_,
    fun env hq query options hexact => ?_⟩
  · rw [((getVector_spec env id).conseq (fun _ h => h) (fun _ _ h => congrArg _ h.1)
        fun _ _ h => absurd hq.1 h.2).result hat,
      ((getVector_spec env id).conseq (fun _ h => h) (fun _ _ h => congrArg _ h.1)
        fun _ _ h => absurd hq.1 h.2).result hat', hstore, hrows]
  · rw [((search_spec p env hflag query options).conseq (fun _ h => h) (fun _ _ h => h.1)
        fun _ _ h => h.2 hq.1).result hat,
      ((search_spec p env hflag' query options).conseq (fun _ h => h) (fun _ _ h => h.1)
        fun _ _ h => h.2 hq.1).result hat', searchCandidates_exact p hconfig hstore query hexact,
      hconfig, hstore, funext hrows]

end Answers

section Runs
variable {K : Type} [BEq K] [LT K] [DecidableLT K] (p : Platform K) (env : Environment)

/-- In order, and in agreement with the tables. -/
def Handle.Orderly (h : Handle) : Prop := HandleSound False h ∧ h.Settled

section Finish
variable {f : Files} {t : Tables} {d db : Database}

theorem finishInsert_settled (hn : Noted f t d) (hflag : db.hasMetadata = d.hasMetadata)
    (id : VectorId) (m : Metadata) :
    Triple (At f t db) (finishInsert env id m) (fun _ => Handle.Settled) (fun _ _ => True) := by
  refine (finishInsert_spec env id m).conseq (fun _ h => h) (fun _ g hg => hg.settled ?_)
    fun _ _ _ => trivial
  refine hn.dirtied rfl fun hf => ?_
  rw [Bool.or_eq_false_iff, Bool.not_eq_false', hflag] at hf
  refine ⟨hf.1, fun i hi => ?_⟩
  rw [insertedTables, if_pos hf.2]
  exact hi

theorem finishRebuild_settled {α : Type} (hn : Noted f t d)
    (hflag : db.hasMetadata = d.hasMetadata) (result : α) :
    Triple (At f t db) (finishRebuild env result) (fun _ => Handle.Settled) (fun _ _ => True) := by
  refine (finishRebuild_spec env result).conseq (fun _ h => h) (fun _ g hg => hg.2.settled ?_)
    fun _ _ _ => trivial
  have hdirtied : Noted f t { db with dirty := true } :=
    hn.dirtied rfl fun hf => ⟨hflag ▸ hf, fun _ hi => hi⟩
  exact hdirtied.flushed

end Finish

theorem insert_settled (id : VectorId) (v : FloatVector) (m : Metadata) :
    Triple Handle.Orderly (insert p env id v m) (fun _ => Handle.Settled) (fun _ _ => True) := by
  rintro h ⟨hh, t, ht, hn⟩
  cases hc : h.db.store.insertCheck id v with
  | error e =>
    rw [exec_insert_rejected p env hc]
    trivial
  | ok u =>
    obtain ⟨db, hg, hexec⟩ := exec_insert_accepted p env (m := m) hh.database.store.consistent
      hh.database.index hc
    rw [hexec]
    have hflag : db.hasMetadata = h.db.hasMetadata := by rw [hg.rest]
    exact finishInsert_settled env hn hflag id m _ (at_of_holds ht db)

theorem upsert_settled (id : VectorId) (v : FloatVector) (m : Metadata) :
    Triple Handle.Orderly (upsert p env id v m) (fun _ => Handle.Settled) (fun _ _ => True) := by
  rintro h ⟨hh, t, ht, hn⟩
  cases hfind : h.db.store.find id with
  | none =>
    rw [exec_upsert_new p env (by simp [VectorStore.contains, hfind])]
    exact insert_settled p env id v m h ⟨hh, t, ht, hn⟩
  | some slot =>
    cases hv : validateVector v h.db.store.dimension with
    | error e =>
      rw [exec_upsert_rejected p env (by simp [VectorStore.contains, hfind]) hv]
      trivial
    | ok u =>
      obtain ⟨s, -, hexec⟩ := exec_upsert_accepted p env (m := m) hh.database.store.consistent
        hfind hv
      rw [hexec]
      refine (finishUpsert_spec env id m).conseq (fun _ h => h) (fun _ g hg => hg.settled ?_)
        (fun _ _ _ => trivial) _ (at_of_holds ht _)
      refine hn.dirtied rfl fun hf => ?_
      rw [Bool.or_eq_false_iff, Bool.not_eq_false'] at hf
      exact ⟨hf.1, fun i hi => rows_replaceRows_of_isEmpty hf.2 hi⟩

theorem remove_settled (id : VectorId) :
    Triple Handle.Orderly (remove env id) (fun _ => Handle.Settled) (fun _ _ => True) := by
  rintro h ⟨hh, t, ht, hn⟩
  cases hfind : h.db.store.find id with
  | none =>
    rw [exec_remove_absent env hfind]
    exact ⟨t, ht, hn⟩
  | some slot =>
    obtain ⟨s, -, hexec⟩ := exec_remove_present env hfind
    rw [hexec]
    refine (finishRemove_spec env id).conseq (fun _ h => h) ?_ (fun _ _ _ => trivial) _ (at_of_holds ht _)
    rintro _ g ⟨-, u, hu, hg⟩
    refine hg.settled (hn.dirtied rfl fun hf => ⟨hf, fun i hi => ?_⟩)
    rw [hu.rows, hi, ite_self]

/-- `set_metadata` leaves what is not dirty as it was in vectors.bin. -/
theorem setMetadata_settled (id : VectorId) (m : Metadata) :
    Triple Handle.Orderly (setMetadata env id m) (fun _ => Handle.Settled) (fun _ _ => True) := by
  rintro h ⟨hh, t, ht, hn⟩
  cases hc : h.db.store.contains id with
  | false =>
    rw [exec_setMetadata_absent env hc]
    trivial
  | true =>
    rw [exec_setMetadata_present env hc]
    refine (finishSetMetadata_spec env id m).conseq (fun _ h => h) (fun _ g hg => hg.settled ?_)
      (fun _ _ _ => trivial) h (at_of_holds ht h.db)
    refine ⟨fun hf i => ?_, fun hd => ?_⟩
    · rw [Bool.or_eq_false_iff, Bool.not_eq_false'] at hf
      exact rows_replaceRows_of_isEmpty hf.2 (hn.flagged hf.1 i)
    · rw [Tables.replaceRows_schemaInfo]
      exact hn.written hd

theorem getVector_settled (id : VectorId) :
    Triple Handle.Orderly (getVector env id) (fun _ => Handle.Settled) (fun _ _ => True) := by
  rintro h ⟨-, t, ht, hn⟩
  exact (getVector_spec env id).conseq (fun _ h => h) (fun _ g hg => hg.2.settled hn)
    (fun _ _ _ => trivial) h (at_of_holds ht h.db)

theorem search_settled (query : FloatVector) (options : QueryOptions) :
    Triple Handle.Orderly (search p env query options) (fun _ => Handle.Settled)
      (fun _ _ => True) := by
  rintro h ⟨-, t, ht, hn⟩
  exact (search_spec p env hn.flagged query options).conseq (fun _ h => h)
    (fun _ g hg => hg.2.settled hn) (fun _ _ _ => trivial) h (at_of_holds ht h.db)

theorem stats_settled :
    Triple Handle.Orderly (stats env) (fun _ => Handle.Settled) (fun _ _ => True) := by
  rintro h ⟨-, t, ht, hn⟩
  exact (stats_at env).triple.conseq (fun _ h => h) (fun _ g hg => hg.settled hn)
    (fun _ _ _ => trivial) h (at_of_holds ht h.db)

/-- A flush that returns has put everything into the files, and changed nothing else. -/
theorem flush_flushed {h h' : Handle} {t : Tables} (ht : h.metadata.Holds t)
    (hn : Noted h.files t h.db) (hexec : exec (flush env) h = (.ok (), h')) :
    ∃ u, h'.metadata.Holds u ∧ Noted h'.files u h'.db ∧ h'.db = { h.db with dirty := false } ∧
      ∀ id, u.rows id = t.rows id := by
  cases hd : h.db.dirty with
  | false =>
    rw [exec_flush, hd, if_neg (by simp)] at hexec
    cases hexec
    exact ⟨t, ht, hn, by rw [← hd], fun _ => rfl⟩
  | true =>
    have hspec := flush_spec env hd h (at_of_holds ht h.db)
    rw [hexec] at hspec
    exact ⟨_, hspec.tables, hspec.db ▸ hn.flushed.same hspec.files, hspec.db, fun _ => rfl⟩

theorem flush_settled :
    Triple Handle.Orderly (flush env) (fun _ => Handle.Settled) (fun _ _ => True) := by
  rintro h ⟨-, t, ht, hn⟩
  rcases hexec : exec (flush env) h with ⟨r, g⟩
  cases r with
  | error e => trivial
  | ok u =>
    obtain ⟨u, hu, hn, -⟩ := flush_flushed env ht hn hexec
    exact ⟨u, hu, hn⟩

theorem rebuildIndex_settled :
    Triple Handle.Orderly (rebuildIndex p env) (fun _ => Handle.Settled) (fun _ _ => True) := by
  rintro h ⟨hh, t, ht, hn⟩
  obtain ⟨built, -, hexec⟩ := exec_rebuildIndex p env hh.database.valid hh.database.store.consistent
  rw [hexec]
  exact finishRebuild_settled env hn (by rfl) () _ (at_of_holds ht _)

theorem compact_settled :
    Triple Handle.Orderly (compact p env) (fun _ => Handle.Settled) (fun _ _ => True) := by
  rintro h ⟨hh, t, ht, hn⟩
  by_cases hzero : h.db.store.tombstoneCount = 0
  · rw [exec_compact_none p env hzero]
    exact ⟨t, ht, hn⟩
  · have hs := hh.database.store
    obtain ⟨s, built, -, -, hexec⟩ := exec_compact_some p env hh.database.valid hs.consistent
      hs.dimension hs.normalizes hzero
    rw [hexec]
    exact finishRebuild_settled env hn (by rfl) _ _ (at_of_holds ht _)

/-- A call that returns leaves what is in memory in agreement with the disk. -/
theorem Operation.run_settled (op : Operation) :
    Triple Handle.Orderly (op.run p env) (fun _ => Handle.Settled) (fun _ _ => True) := by
  cases op with
  | insert id v m => exact insert_settled p env id v m
  | insertAuto v m =>
    intro h hh
    rw [run_insertAuto]
    exact insert_settled p env h.db.nextAutoId v m h hh
  | upsert id v m => exact upsert_settled p env id v m
  | remove id => exact Triple.bind (remove_settled env id) fun _ => Triple.pure fun _ h => h
  | setMetadata id m => exact setMetadata_settled env id m
  | getVector id => exact Triple.bind (getVector_settled env id) fun _ => Triple.pure fun _ h => h
  | search q o => exact Triple.bind (search_settled p env q o) fun _ => Triple.pure fun _ h => h
  | stats => exact Triple.bind (stats_settled env) fun _ => Triple.pure fun _ h => h
  | rebuildIndex => exact rebuildIndex_settled p env
  | compact => exact Triple.bind (compact_settled p env) fun _ => Triple.pure fun _ h => h
  | flush => exact flush_settled env

/-- The event returns normally; a process that closes its database has flushed it. -/
def Event.Succeeds (event : Event) (env : Environment) (s : State) : Prop :=
  match event, s with
  | .create config _, .absent => ∃ db d, exec (Db.create p env config) newDirectory = (.ok db, d)
  | .call op, .opened h => ∃ h', exec (op.run p env) h = (.ok (), h')
  | .crash, _ => False
  | .close, .opened h => ∃ h', exec (Db.flush env) h = (.ok (), h')
  | _, _ => True

def State.Settled : State → Prop
  | .absent => True
  | .closed d => d.files.vectors ≠ none
  | .opened h => h.Settled

theorem exec_destroy_of_flush {h g : Handle} (hexec : exec (flush env) h = (.ok (), g)) :
    exec (destroy env) h = (.ok (), g) := by
  rw [destroy, exec_tryCatch, hexec]

/-- What a reopened database has in memory and in its tables. -/
theorem reopened_noted {d : Disk} {c : DatabaseConfig} {s : VectorStore} {id : VectorId}
    {db : Database} (ho : OpenedFrom p env d.tables c s d.files.index db) (hid : db.nextAutoId = id)
    (hvectors : d.files.vectors = some (writeVectorFile s))
    (hnext : d.tables.schemaInfo[kKeyNextId]? = some (toString id.val)) :
    Noted d.files d.tables.withSchemaVersion db := by
  refine ⟨fun hflag i => ?_, fun _ => ⟨?_, ?_⟩⟩
  · have hsize : d.tables.metadata = ∅ := by
      have h := ho.hasMetadata
      rw [hflag] at h
      have hzero : d.tables.metadata.size = 0 := by simpa using h.symm
      exact Std.ExtTreeMap.eq_empty_iff_size_eq_zero.mpr hzero
    simp [Tables.rows, hsize]
  · rw [ho.store]
    exact hvectors
  · rw [getElem?_withSchemaVersion _ (by decide), hid]
    exact hnext

theorem State.after_settled {s : State} {event : Event} (hs : s.Sound False) (hset : s.Settled)
    (hok : event.Succeeds p env s) : (s.after p env event).Settled := by
  cases event with
  | create config sized =>
    cases s with
    | absent =>
      obtain ⟨db, d, hexec⟩ := hok
      cases hv : config.validate with
      | error e => simp [State.after, hv, State.Settled]
      | ok u =>
        have hcreate := create_spec p env hv newDirectory ⟨.refl _, MetadataStore.holds_fresh _⟩
        rw [hexec] at hcreate
        obtain ⟨made, hmade, hat⟩ := hcreate
        rw [State.after_create p env sized hv, hexec]
        have hrows : ∀ id, (newTables config).rows id = ∅ := fun id => by
          simp [newTables, configuredTables, DatabaseConfig.entries, Tables.rows,
            Tables.setConfigValue]
        refine hat.settled (Noted.flushed ⟨fun _ => hrows, fun hd => ?_⟩)
        rw [hmade.dirty] at hd
        cases hd
    | closed d => exact hset
    | opened h => exact hset
  | call op =>
    cases s with
    | absent => trivial
    | closed d => exact hset
    | opened h =>
      obtain ⟨h', hexec⟩ := hok
      have hrun := op.run_settled p env h ⟨hs, hset⟩
      rw [hexec] at hrun
      show Handle.Settled (exec (op.run p env) h).2
      rw [hexec]
      exact hrun
  | crash => exact hok.elim
  | close =>
    cases s with
    | absent => trivial
    | closed d => exact hset
    | opened h =>
      obtain ⟨h', hexec⟩ := hok
      obtain ⟨t, ht, hn⟩ := hset
      obtain ⟨u, -, hn', hdb, -⟩ := flush_flushed env ht hn hexec
      show (exec (destroy env) h).2.files.vectors ≠ none
      rw [exec_destroy_of_flush env hexec, (hn'.written (by rw [hdb])).1]
      exact Option.some_ne_none _
  | reopen =>
    cases s with
    | absent => trivial
    | opened h => exact hset
    | closed d =>
      rcases hs.sound with habandoned | ⟨c, hv, hsized, hfiles, htables⟩
      · exact absurd habandoned.vectors hset
      · obtain ⟨s, id, -, hvectors, hnext, hopen⟩ := reopen_spec p env hv hsized hfiles htables
        have hvectors := hvectors.resolve_right fun h => hset h.1
        have hspec := hopen d.directory ⟨.refl _, MetadataStore.holds_fresh _⟩
        show State.Settled (State.ofCall (exec (openDatabase p env) d.directory))
        rcases hexec : exec (openDatabase p env) d.directory with ⟨r, t⟩
        rw [hexec] at hspec
        cases r with
        | error e =>
          obtain ⟨hsame, -⟩ := hspec
          show t.files.vectors ≠ none
          rw [hsame.vectors]
          exact hset
        | ok db =>
          obtain ⟨hsame, hholds, ho, hid⟩ := hspec
          exact ⟨_, hholds, (reopened_noted p _ ho hid hvectors hnext).same hsame⟩

theorem reachable_settled {s : State} (hr : (runs p (Event.Succeeds p)).Reachable s) :
    s.Sound False ∧ s.Settled := by
  refine hr.invariant (P := fun s => s.Sound False ∧ s.Settled) ?_ ?_
  · rintro _ rfl
    exact ⟨trivial, trivial⟩
  · rintro s _ ⟨hs, hset⟩ ⟨event, env, hok, rfl⟩
    exact ⟨State.after_sound p env hs event fun _ _ _ h => h.elim,
      State.after_settled p env hs hset hok⟩

/-- A database that is flushed, or closed with a flush, opens again with the same
answers, after any run of calls that return. -/
theorem flush_then_open_sameAnswers {h h' : Handle}
    (hr : (runs p (Event.Succeeds p)).Reachable (.opened h))
    (hflush : exec (flush env) h = (.ok (), h')) {quiet : Environment} (hq : quiet.Quiet)
    {disk : Disk} (hdisk : disk = h'.disk ∨ disk = (exec (destroy env) h).2.disk) :
    ∃ db d, exec (openDatabase p quiet) disk.directory = (.ok db, d) ∧
      SameAnswers p h ⟨d, db⟩ := by
  have hdisk : disk = h'.disk := by
    rw [exec_destroy_of_flush env hflush] at hdisk
    exact hdisk.elim id id
  subst hdisk
  obtain ⟨hs, t, ht, hn⟩ := reachable_settled p hr
  obtain ⟨u, hu, hn', hdb, hrows⟩ := flush_flushed env ht hn hflush
  obtain ⟨hvectors, hnext⟩ := hn'.written (by rw [hdb])
  have hs' := flush_sound env h hs
  rw [hflush] at hs'
  have hc := hs'.database.store.consistent
  obtain ⟨s, id, hstore, hheld, hid, hopen⟩ := reopen_spec p quiet (d := h'.disk)
    hs'.database.valid hs'.database.sized hs'.directory.files hs'.directory.tables.committed
  have htables : h'.disk.tables = u := hu.2
  have hsame : s = h'.db.store := by
    have hheld := hheld.resolve_right fun h => by
      have hnone : h'.files.vectors = none := h.1
      rw [hvectors] at hnone
      cases hnone
    exact writeVectorFile_injective hstore.consistent hc
      (Option.some.inj (hheld.symm.trans hvectors))
  have hcounter : id = h'.db.nextAutoId := by
    have h := nextIdOf_eq hid
    rw [htables, nextIdOf_eq hnext] at h
    exact (Fin.ext (Except.ok.inj h)).symm
  have hspec := hopen h'.disk.directory ⟨.refl _, MetadataStore.holds_fresh _⟩
  rcases hexec : exec (openDatabase p quiet) h'.disk.directory with ⟨r, d⟩
  rw [hexec] at hspec
  cases r with
  | error e => exact absurd hq hspec.2.2
  | ok db =>
    obtain ⟨hfiles, hholds, ho, hnextid⟩ := hspec
    refine ⟨db, d, rfl, sameAnswers p ht hholds hn.flagged ?_ ?_ ?_ ?_ ?_⟩
    · exact (reopened_noted p _ ho hnextid (hsame ▸ hvectors) hid).flagged
    · intro i
      rw [htables, ← hrows]
      simp [Tables.rows]
    · rw [ho.config, hdb]
    · rw [ho.store, hsame, hdb]
    · rw [hnextid, hcounter, hdb]

end Runs

theorem flush_then_open_one_vector : ∃ (h h' : Handle) (db : Database) (d : Directory),
    h.db.store.slotCount = 1 ∧ exec (flush faultless) h = (.ok (), h') ∧
      exec (openDatabase unitPlatform faultless) h'.disk.directory = (.ok db, d) ∧
      SameAnswers unitPlatform h ⟨d, db⟩ := by
  obtain ⟨h₀, h₁, hone⟩ := exists_unitVector ∅ (by simp)
  have hreach := hone.reachable unitPlatform (Event.Succeeds unitPlatform) unitConfig_sized
    ⟨_, _, hone.create⟩ ⟨_, hone.insert⟩
  obtain ⟨grown, t, -, hgrown, hat⟩ := hone.one
  obtain ⟨h', hflush, -⟩ := flush_quiet quiet_faultless hat.tables (by rw [hat.db])
  obtain ⟨db, d, hopen, hsame⟩ := flush_then_open_sameAnswers unitPlatform faultless hreach hflush
    quiet_faultless (.inl rfl)
  exact ⟨h₁, h', db, d, hone.slotCount, hflush, hopen, hsame⟩

end VectorDb.Db
