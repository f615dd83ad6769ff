import VectorDb.Db.ApproximateSearch
import VectorDb.Db.AutoIds
import VectorDb.Lib.SharedLock

/-!
src/db/concurrent_database.cpp: a database that several threads call, its reads
under a shared lock and its writes under an exclusive one. The threads that read at
one time share the connection to SQLite, whose own lock lets in one statement at a
time.
-/
set_option autoImplicit false

namespace VectorDb.Db

open VectorDb.Lib VectorDb.Storage VectorDb.Index Throwing

/-- The calls that only read. -/
inductive SharedCall where
  | search (query : FloatVector) (options : QueryOptions)
  | get (id : VectorId)
  | contains (id : VectorId)
  | stats
  | size

/-- What is done under the lock, once it is taken. The two accesses are given the calls
that their bodies make, one after the other. -/
inductive ConcurrentCall where
  | read (call : SharedCall)
  | insert (id : VectorId) (vector : FloatVector) (metadata : Metadata)
  | insertAuto (vector : FloatVector) (metadata : Metadata)
  | remove (id : VectorId)
  | flush
  | rebuildIndex
  | compact
  | withExclusiveAccess (body : List Operation)
  | withSharedAccess (body : List SharedCall)

/-- `batch_search`: each query takes the lock for itself, on whichever thread of the pool
it runs. -/
def batchSearch (queries : List FloatVector) (options : QueryOptions) : List ConcurrentCall :=
  queries.map fun query => .read (.search query options)

/-- What these calls return. `seen` is what the calls in the body of a shared access
return to it. -/
inductive Answer where
  | results (results : List QueryResult)
  | stored (vector : Option StoredVector)
  | flag (b : Bool)
  | stats (stats : DatabaseStats)
  | count (n : Nat)
  | assigned (id : VectorId)
  | seen (answers : List Answer)
  | done

/-- `std::unique_lock` rather than `std::shared_lock`. -/
def ConcurrentCall.exclusive : ConcurrentCall → Bool
  | .read _ | .withSharedAccess _ => false
  | _ => true

section Calls
variable {K : Type} [BEq K] [LT K] [DecidableLT K] (p : Platform K) (env : Environment)

/-- The call of the database inside. -/
def SharedCall.run : SharedCall → Call Answer
  | .search query options => do return .results (← Db.search p env query options)
  | .get id => do return .stored (← getVector env id)
  | .contains id => do return .flag ((← MonadState.get).db.store.contains id)
  | .stats => do return .stats (← Db.stats env)
  | .size => do return .count (← MonadState.get).db.size

/-- The calls of a shared access. -/
def seeAll : List SharedCall → Call (List Answer)
  | [] => return []
  | call :: calls => do
    let answer ← call.run p env
    let answers ← seeAll calls
    return answer :: answers

def ConcurrentCall.run : ConcurrentCall → Call Answer
  | .read call => call.run p env
  | .insert id vector metadata => do
    Db.insert p env id vector metadata
    return .done
  | .insertAuto vector metadata => do return .assigned (← Db.insertAuto p env vector metadata)
  | .remove id => do return .flag (← Db.remove env id)
  | .flush => do
    Db.flush env
    return .done
  | .rebuildIndex => do
    Db.rebuildIndex p env
    return .done
  | .compact => do return .count (← Db.compact p env)
  | .withExclusiveAccess body => do
    body.forM fun op => op.run p env
    return .done
  | .withSharedAccess body => do return .seen (← seeAll p env body)

section Bodies

/-- A statement that reads. -/
abbrev readCall {α : Type} (statement : Option Prepared) (read : Tables → α) : Call α :=
  onDirectory (onMetadata (MetadataStore.sql (queryStatement env.sql statement read)))

/-- It is one step of its thread: `MetadataStore` locks its mutex for it. -/
def queryBody {α : Type} (statement : Option Prepared) (read : Tables → α) :
    Body Handle (Except Error α) :=
  .whole (exec (readCall env statement read))

/-- A look at the memory, which only writers change. -/
def memoryBody {ρ : Type} (next : Database → Body Handle ρ) : Body Handle ρ :=
  .step id fun h => next h.db

def metadataBody (id : VectorId) : Body Handle (Except Error Metadata) :=
  queryBody env (some .selectByVector) fun t => MetadataStore.metadataOf (t.rows id)

/-- `get`, step by step. -/
def getBody (id : VectorId) : Body Handle (Except Error (Option StoredVector)) :=
  memoryBody fun db =>
    match db.store.find id with
    | none => .done (.ok none)
    | some slot => (metadataBody env id).andThen fun metadata =>
      .done (.ok (some ⟨id, db.store.vector slot, metadata⟩))

/-- The loop of `search` over its candidates. -/
def collectBody (db : Database) (options : QueryOptions) :
    List (Candidate K) → List QueryResult → Body Handle (Except Error (List QueryResult))
  | [], results => .done (.ok results)
  | c :: candidates, results =>
    if options.k ≤ results.length then .done (.ok results)
    else
      let id := db.store.vectorId c.localId
      let score := p.scoreFromRankKey db.config.metric c.key
      if db.hasMetadata && (!options.filter.isEmpty || options.includeMetadata) then
        (metadataBody env id).andThen fun metadata =>
          if options.filter.matches metadata then
            collectBody db options candidates (results ++ [⟨id, score, metadata⟩])
          else collectBody db options candidates results
      else if options.filter.isEmpty then
        collectBody db options candidates (results ++ [⟨id, score, ∅⟩])
      else collectBody db options candidates results

/-- `search`, step by step. -/
def searchBody (query : FloatVector) (options : QueryOptions) :
    Body Handle (Except Error (List QueryResult)) :=
  if options.k = 0 then .done (.error (.invalidArgument "search requires k >= 1"))
  else
    memoryBody fun db =>
      match validateVector query db.config.dimension with
      | .error e => .done (.error e)
      | .ok _ =>
        match searchCandidates p db query options with
        | .error e => .done (.error e)
        | .ok candidates => collectBody p env db options candidates []

/-- `stats`, step by step. -/
def statsBody : Body Handle (Except Error DatabaseStats) :=
  memoryBody fun db =>
    (queryBody env none fun t => t.metadata.size).andThen fun metadataVectors =>
    (queryBody env none fun t => t.allRows.length).andThen fun metadataRows =>
    (queryBody env none Tables.keysOf).andThen fun metadataKeys =>
    .done (.ok (db.statsOf metadataVectors metadataRows metadataKeys))

def SharedCall.body : SharedCall → Body Handle (Except Error Answer)
  | .search query options =>
    (searchBody p env query options).andThen fun results => .done (.ok (.results results))
  | .get id => (getBody env id).andThen fun vector => .done (.ok (.stored vector))
  | .contains id => memoryBody fun db => .done (.ok (.flag (db.store.contains id)))
  | .stats => (statsBody env).andThen fun stats => .done (.ok (.stats stats))
  | .size => memoryBody fun db => .done (.ok (.count db.size))

def seeAllBody : List SharedCall → Body Handle (Except Error (List Answer))
  | [] => .done (.ok [])
  | call :: calls => (call.body p env).andThen fun answer =>
    (seeAllBody calls).andThen fun answers => .done (.ok (answer :: answers))

/-- A call as its thread does it; what a writer does is nobody else's business. -/
def ConcurrentCall.body : ConcurrentCall → Body Handle (Except Error Answer)
  | .read call => call.body p env
  | .withSharedAccess body =>
    (seeAllBody p env body).andThen fun answers => .done (.ok (.seen answers))
  | call => .whole (exec (call.run p env))

end Bodies

section Alone
variable {p env}

theorem run_memoryBody {ρ : Type} (next : Database → Body Handle ρ) (h : Handle) :
    (memoryBody next).run h = (next h.db).run h := rfl

/-- Going on after a body is going on after what it does. -/
theorem run_andThen_exec {α β : Type} {b : Body Handle (Except Error α)} {x : Call α}
    {f : α → Body Handle (Except Error β)} {k : α → Call β} (hb : ∀ h, b.run h = exec x h)
    (hf : ∀ a h, (f a).run h = exec (k a) h) (h : Handle) :
    (b.andThen f).run h = exec (x >>= k) h := by
  rw [Body.run_andThen, hb, exec_bind]
  rcases exec x h with ⟨r, g⟩
  cases r with
  | error e => rfl
  | ok a => exact hf a g

theorem run_getBody (id : VectorId) (h : Handle) :
    (getBody env id).run h = exec (getVector env id) h := by
  rw [getBody, run_memoryBody, getVector, exec_bind, exec_get]
  dsimp only
  cases h.db.store.find id with
  | none => rfl
  | some slot => exact run_andThen_exec (fun _ => rfl) (fun _ _ => rfl) h

theorem exec_onDirectory_bind {α β : Type} (x : DirectoryCall α) (k : α → DirectoryCall β)
    (h : Handle) : exec (onDirectory (x >>= k)) h =
      exec (onDirectory x >>= fun a => onDirectory (k a)) h := by
  simp only [exec_onDirectory, exec_bind]
  rcases exec x h.toDirectory with ⟨r, d⟩
  cases r <;> rfl

theorem run_collectBody (db : Database) (options : QueryOptions)
    (candidates : List (Candidate K)) (results : List QueryResult) (h : Handle) :
    (collectBody p env db options candidates results).run h =
      exec (onDirectory (collectResults p env db options candidates results)) h := by
  induction candidates generalizing results h with
  | nil => rfl
  | cons c candidates ih =>
    unfold collectBody collectResults
    by_cases hfull : options.k ≤ results.length
    · rw [if_pos hfull, if_pos hfull]
      rfl
    · rw [if_neg hfull, if_neg hfull]
      dsimp only
      split
      · rw [exec_onDirectory_bind]
        refine run_andThen_exec (fun _ => rfl) (fun m g => ?_) h
        split
        · exact ih _ g
        · exact ih _ g
      · split
        · exact ih _ h
        · exact ih _ h

theorem run_searchBody (query : FloatVector) (options : QueryOptions) (h : Handle) :
    (searchBody p env query options).run h = exec (Db.search p env query options) h := by
  unfold searchBody Db.search
  by_cases hk : options.k = 0
  · rw [if_pos hk, if_pos hk]
    rfl
  · rw [if_neg hk, if_neg hk, run_memoryBody]
    simp only [exec_bind, exec_get, exec_fromExcept]
    cases validateVector query h.db.config.dimension with
    | error e => rfl
    | ok u =>
      cases searchCandidates p h.db query options with
      | error e => rfl
      | ok candidates => exact run_collectBody h.db options candidates [] h

theorem run_statsBody (h : Handle) : (statsBody env).run h = exec (Db.stats env) h := by
  rw [statsBody, run_memoryBody, Db.stats, exec_bind, exec_get]
  refine run_andThen_exec (fun _ => rfl) (fun _ h => ?_) h
  refine run_andThen_exec (fun _ => rfl) (fun _ h => ?_) h
  exact run_andThen_exec (fun _ => rfl) (fun _ _ => rfl) h

theorem SharedCall.run_body (call : SharedCall) (h : Handle) :
    (call.body p env).run h = exec (call.run p env) h := by
  cases call with
  | search query options =>
    exact run_andThen_exec (run_searchBody query options) (fun _ _ => rfl) h
  | get id => exact run_andThen_exec (run_getBody id) (fun _ _ => rfl) h
  | contains id => rfl
  | stats => exact run_andThen_exec run_statsBody (fun _ _ => rfl) h
  | size => rfl

theorem run_seeAllBody (calls : List SharedCall) (h : Handle) :
    (seeAllBody p env calls).run h = exec (seeAll p env calls) h := by
  induction calls generalizing h with
  | nil => rfl
  | cons call calls ih =>
    refine run_andThen_exec call.run_body (fun _ h => ?_) h
    exact run_andThen_exec ih (fun _ _ => rfl) h

/-- A call that no other call's steps come between is the call of the database. -/
theorem ConcurrentCall.run_body (call : ConcurrentCall) (h : Handle) :
    (call.body p env).run h = exec (call.run p env) h := by
  cases call with
  | read call => exact call.run_body h
  | withSharedAccess body => exact run_andThen_exec (run_seeAllBody body) (fun _ _ => rfl) h
  | _ => rfl

end Alone

/-- One step that a reader makes of the handle: a lookup of a live id, or a statement of
its own. -/
inductive ReadStep : Handle → Handle → Prop where
  | lookup {h : Handle} (id : VectorId) : ReadStep h (exec (getVector env id) h).2
  | query {h : Handle} :
      ReadStep h (exec (onDirectory (onMetadata (MetadataStore.vectorCount env.sql))) h).2

/-- `g` is `h` after some steps of readers. Where the `SELECT` answers, none of them leaves it
stuck. -/
def Moved (h g : Handle) : Prop :=
  ∃ n, g = h.ticked n ∧ (env.sql.Answers (h.metadata.connection.stuck .selectByVector) →
    n.2 = h.metadata.connection.stuck)

/-- The handle once SQLite has counted some more of its calls. -/
def Handle.later (h : Handle) (clock : Nat) : Handle :=
  h.ticked (clock, h.metadata.connection.stuck)

/-- A read that SQLite has refused. -/
def Refused {α : Type} (h : Handle) (r : Except Error α) : Prop :=
  ¬ env.sql.Answers (h.metadata.connection.stuck .selectByVector) ∧
    ∃ detail, r = .error (.metadata detail)

section Reading
variable {env} {h g k : Handle} {α β : Type}

theorem Moved.refl (h : Handle) : Moved env h h :=
  ⟨(h.metadata.connection.clock, h.metadata.connection.stuck), rfl, fun _ => rfl⟩

theorem Moved.trans (hg : Moved env h g) (hk : Moved env g k) : Moved env h k := by
  obtain ⟨n, rfl, hn⟩ := hg
  obtain ⟨n', rfl, hn'⟩ := hk
  refine ⟨n', rfl, fun ha => ?_⟩
  have hsame := hn ha
  exact (hn' (show env.sql.Answers (n.2 .selectByVector) from hsame ▸ ha)).trans hsame

theorem Moved.db (hg : Moved env h g) : g.db = h.db := by
  obtain ⟨n, rfl, -⟩ := hg
  rfl

theorem Moved.later (hg : Moved env h g) (clock : Nat) : Moved env (h.later clock) g := by
  obtain ⟨n, rfl, hn⟩ := hg
  exact ⟨n, rfl, hn⟩

/-- What a statement that reads does to the handle. -/
theorem query_moved {statement : Option Prepared}
    (hs : statement = none ∨ statement = some .selectByVector) (read : Tables → α) (h : Handle) :
    Moved env h (exec (readCall env statement read) h).2 := by
  simp only [readCall, MetadataStore.sql, exec_onDirectory, exec_onMetadata, exec_on,
    exec_queryStatement]
  cases hf : h.metadata.connection.failure env.sql statement with
  | none => exact ⟨(_, h.metadata.connection.stuck), rfl, fun _ => rfl⟩
  | some detail =>
    rcases hs with rfl | rfl
    · exact ⟨(_, h.metadata.connection.stuck), rfl, fun _ => rfl⟩
    · refine ⟨(_, _), rfl, fun ha => ?_⟩
      obtain ⟨hbind, hstep⟩ := ha h.metadata.connection.clock
      rw [Connection.failure, hbind, hstep] at hf
      cases hf

/-- What it gives, and when it is refused. -/
theorem query_answer {statement : Option Prepared}
    (hs : statement = none ∨ statement = some .selectByVector) (read : Tables → α)
    (hg : Moved env h g) :
    (exec (readCall env statement read) g).1 = .ok (read h.metadata.connection.view) ∨
      Refused env h (exec (readCall env statement read) g).1 := by
  obtain ⟨n, rfl, hn⟩ := hg
  simp only [readCall, MetadataStore.sql, exec_onDirectory, exec_onMetadata, exec_on,
    exec_queryStatement]
  cases hf : (h.ticked n).metadata.connection.failure env.sql statement with
  | none => exact .inl rfl
  | some detail =>
    refine .inr ⟨fun ha => ?_, detail, rfl⟩
    obtain ⟨hbind, hstep⟩ := ha (h.ticked n).metadata.connection.clock
    rcases hs with rfl | rfl
    · rw [Connection.failure, hstep] at hf
      cases hf
    · have hstuck : (h.ticked n).metadata.connection.stuck = h.metadata.connection.stuck := hn ha
      rw [Connection.failure, hstuck, hbind, hstep] at hf
      cases hf

theorem getVector_live_state {id : VectorId} (hlive : h.db.store.contains id = true) :
    (exec (getVector env id) h).2 =
      (exec (onDirectory (onMetadata (MetadataStore.get env.sql id))) h).2 := by
  obtain ⟨slot, hfind⟩ := Option.isSome_iff_exists.mp hlive
  rw [getVector, exec_bind, exec_get]
  simp only [hfind, exec_bind_pure]

theorem ReadStep.moved (hstep : ReadStep env h g) : Moved env h g := by
  cases hstep with
  | lookup id =>
    cases hlive : h.db.store.contains id with
    | true =>
      rw [getVector_live_state hlive]
      exact query_moved (.inr rfl) _ h
    | false =>
      have hfind : h.db.store.find id = none := by
        simpa [VectorStore.contains] using hlive
      have hexec : exec (getVector env id) h = (.ok none, h) := by
        simp [getVector, exec_bind, hfind]
      rw [hexec]
      exact .refl h
  | query => exact query_moved (.inl rfl) _ h

theorem moves_moved (hmoves : Relation.ReflTransGen (ReadStep env) h g) : Moved env h g := by
  induction hmoves with
  | refl => exact .refl h
  | tail _ hstep ih => exact ih.trans hstep.moved

/-- A body that reads, done between the steps of other readers: it gives what `x` gives on its
own, unless SQLite refuses a statement. -/
structure Gives (env : Environment) (b : Body Handle (Except Error α)) (x : Call α) (h : Handle) :
    Prop where
  reads : ∀ {g}, Moved env h g → b.ReadsOnly (ReadStep env) g
  answers : ∀ {g r t}, Moved env h g → b.Ends (ReadStep env) g r t →
    r = (exec x h).1 ∨ Refused env h r
  quiet : ∃ clock, (exec x h).2 = h.later clock

theorem Gives.congr {b : Body Handle (Except Error α)} {x y : Call α} (hb : Gives env b x h)
    (heq : exec y h = exec x h) : Gives env b y h where
  reads := hb.reads
  answers hg he := heq ▸ hb.answers hg he
  quiet := heq ▸ hb.quiet

theorem gives_done {r : Except Error α} {x : Call α} (hx : exec x h = (r, h)) :
    Gives env (.done r) x h where
  reads _ := trivial
  answers _ he := .inl (by rw [hx, he.1])
  quiet := ⟨h.metadata.connection.clock, by rw [hx]; rfl⟩

theorem gives_memory {next : Database → Body Handle (Except Error α)} {x : Call α}
    (hnext : Gives env (next h.db) x h) : Gives env (memoryBody next) x h where
  reads hg := fun m hm => by
    have hmoved := hg.trans (moves_moved hm)
    refine ⟨.refl, ?_⟩
    show (next m.db).ReadsOnly (ReadStep env) m
    rw [hmoved.db]
    exact hnext.reads hmoved
  answers hg := fun ⟨m, hm, he⟩ => by
    have hmoved := hg.trans (moves_moved hm)
    change (next m.db).Ends (ReadStep env) m _ _ at he
    rw [hmoved.db] at he
    exact hnext.answers hmoved he
  quiet := hnext.quiet

/-- A statement: either its own, or the lookup of a live id. -/
theorem gives_query {statement : Option Prepared} {read : Tables → α}
    (hs : statement = none ∨
      statement = some .selectByVector ∧ ∃ id, h.db.store.contains id = true) :
    Gives env (queryBody env statement read) (readCall faultless statement read) h := by
  have hstatement : statement = none ∨ statement = some .selectByVector := hs.imp_right And.left
  refine ⟨fun hg => Body.readsOnly_whole fun m hm => .single ?_, fun hg he => ?_, ?_⟩
  · have hmoved := hg.trans (moves_moved hm)
    rcases hs with rfl | ⟨rfl, id, hlive⟩
    · have hsame : (exec (readCall env none read) m).2 =
          (exec (onDirectory (onMetadata (MetadataStore.vectorCount env.sql))) m).2 := by
        simp only [readCall, MetadataStore.vectorCount, MetadataStore.sql, exec_onDirectory,
          exec_onMetadata, exec_on, exec_queryStatement]
        cases m.metadata.connection.failure env.sql none <;> rfl
      rw [hsame]
      exact .query
    · have hsame : (exec (readCall env (some .selectByVector) read) m).2 =
          (exec (getVector env id) m).2 := by
        rw [getVector_live_state (by rw [hmoved.db, hlive])]
        simp only [readCall, MetadataStore.get, MetadataStore.sql, exec_onDirectory,
          exec_onMetadata, exec_on, exec_queryStatement]
        cases m.metadata.connection.failure env.sql (some .selectByVector) <;> rfl
      rw [hsame]
      exact .lookup id
  · obtain ⟨m, hm, rfl, -⟩ := he
    have hquiet := query_answer hstatement read (Moved.refl h : Moved faultless h h)
    rw [or_iff_left fun hrefused => hrefused.1 (quiet_faultless.1.answers _)] at hquiet
    rw [hquiet]
    exact query_answer hstatement read (hg.trans (moves_moved hm))
  · obtain ⟨n, hn, hstuck⟩ : Moved faultless h _ := query_moved hstatement read h
    refine ⟨n.1, hn.trans ?_⟩
    rw [Handle.later, ← hstuck (quiet_faultless.1.answers _)]

/-- One read after another. -/
theorem Gives.andThen {b : Body Handle (Except Error α)} {x : Call α}
    {f : α → Body Handle (Except Error β)} {k : α → Call β} (hb : Gives env b x h)
    (hf : ∀ a clock, exec x h = (.ok a, h.later clock) → Gives env (f a) (k a) (h.later clock)) :
    Gives env (b.andThen f) (x >>= k) h := by
  obtain ⟨clock, hquiet⟩ := hb.quiet
  have hgoes : ∀ {g a t}, Moved env h g → b.Ends (ReadStep env) g (.ok a) t →
      exec x h = (.ok a, h.later clock) ∧ Moved env h t := by
    intro g a t hg he
    refine ⟨?_, hg.trans (moves_moved ((hb.reads hg).moves he))⟩
    rcases hb.answers hg he with hok | ⟨-, detail, hr⟩
    · exact Prod.ext hok.symm hquiet
    · cases hr
  refine ⟨fun hg => ?_, fun hg he => ?_, ?_⟩
  · refine Body.readsOnly_andThen (hb.reads hg) fun a t he => ?_
    obtain ⟨hexec, ht⟩ := hgoes hg he
    exact (hf a clock hexec).reads (ht.later clock)
  · rcases Body.ends_andThen he with ⟨e, rfl, hthrown⟩ | ⟨a, t, hfirst, hrest⟩
    · rcases hb.answers hg hthrown with herror | ⟨hna, detail, hr⟩
      · refine .inl ?_
        rcases hexec : exec x h with ⟨r, h₁⟩
        rw [hexec] at herror
        cases herror
        rw [exec_bind, hexec]
      · cases hr
        exact .inr ⟨hna, detail, rfl⟩
    · obtain ⟨hexec, ht⟩ := hgoes hg hfirst
      rw [exec_bind, hexec]
      exact (hf a clock hexec).answers (ht.later clock) hrest
  · rcases hexec : exec x h with ⟨r, h₁⟩
    rw [exec_bind, hexec]
    rw [hexec] at hquiet
    obtain rfl : h₁ = h.later clock := hquiet
    cases r with
    | error e => exact ⟨clock, rfl⟩
    | ok a =>
      obtain ⟨clock', hlast⟩ := (hf a clock hexec).quiet
      exact ⟨clock', hlast⟩

end Reading

section Answers
variable {p env} {h : Handle} {α β : Type}

/-- The candidates of a search are live. -/
theorem live_of_mem_searchCandidates {db : Database} {query : FloatVector} {options : QueryOptions}
    {candidates : List (Candidate K)} {c : Candidate K}
    (hc : searchCandidates p db query options = .ok candidates) (hmem : c ∈ candidates) :
    db.store.isLive c.localId = true := by
  simp only [searchCandidates] at hc
  split at hc
  · exact BruteForceIndex.live_of_mem_search hc hmem
  · split at hc
    · exact BruteForceIndex.live_of_mem_search hc hmem
    · exact HnswIndex.live_of_mem_search hc hmem

theorem Gives.map {b : Body Handle (Except Error α)} {x : Call α} (hb : Gives env b x h)
    (f : α → β) :
    Gives env (b.andThen fun a => .done (.ok (f a))) (do return f (← x)) h :=
  hb.andThen fun _ _ _ => gives_done rfl

theorem gives_get (id : VectorId) : Gives env (getBody env id) (getVector faultless id) h := by
  refine gives_memory (Gives.congr (x := match h.db.store.find id with
    | none => pure none
    | some slot => do
      let metadata ← onDirectory (onMetadata (MetadataStore.get faultless.sql id))
      return some ⟨id, h.db.store.vector slot, metadata⟩) ?_ rfl)
  cases hfind : h.db.store.find id with
  | none => exact gives_done rfl
  | some slot =>
    have hlive : h.db.store.contains id = true := by rw [VectorStore.contains, hfind]; rfl
    exact (gives_query (.inr ⟨rfl, id, hlive⟩)).map _

theorem gives_collect {db : Database} (options : QueryOptions) {candidates : List (Candidate K)}
    (hlive : ∀ c ∈ candidates, ∃ id, h.db.store.contains id = true) (results : List QueryResult) :
    Gives env (collectBody p env db options candidates results)
      (onDirectory (collectResults p faultless db options candidates results)) h := by
  induction candidates generalizing results h with
  | nil => exact gives_done rfl
  | cons c candidates ih =>
    have hrest : ∀ c ∈ candidates, ∃ id, h.db.store.contains id = true :=
      fun c hc => hlive c (List.mem_cons_of_mem _ hc)
    unfold collectBody collectResults
    by_cases hfull : options.k ≤ results.length
    · rw [if_pos hfull, if_pos hfull]
      exact gives_done rfl
    · rw [if_neg hfull, if_neg hfull]
      dsimp only
      split
      · refine Gives.congr ?_ (exec_onDirectory_bind _ _ h)
        refine (gives_query (.inr ⟨rfl, hlive c List.mem_cons_self⟩)).andThen fun m clock _ => ?_
        split
        · exact ih (h := h.later clock) hrest _
        · exact ih (h := h.later clock) hrest _
      · split
        · exact ih hrest _
        · exact ih hrest _

theorem gives_search (hs : h.db.store.Consistent) (query : FloatVector) (options : QueryOptions) :
    Gives env (searchBody p env query options) (Db.search p faultless query options) h := by
  unfold searchBody Db.search
  by_cases hk : options.k = 0
  · rw [if_pos hk, if_pos hk]
    exact gives_done rfl
  · rw [if_neg hk, if_neg hk]
    refine gives_memory (Gives.congr (x := do
      fromExcept (validateVector query h.db.config.dimension)
      let candidates ← fromExcept (searchCandidates p h.db query options)
      onDirectory (collectResults p faultless h.db options candidates [])) ?_ rfl)
    cases validateVector query h.db.config.dimension with
    | error e => exact gives_done rfl
    | ok u =>
      cases hc : searchCandidates p h.db query options with
      | error e => exact gives_done rfl
      | ok candidates =>
        refine Gives.congr (gives_collect options (fun c hmem => ?_) []) rfl
        refine ⟨h.db.store.vectorId c.localId, ?_⟩
        rw [VectorStore.contains, find_of_isLive hs (live_of_mem_searchCandidates hc hmem)]
        rfl

theorem gives_stats : Gives env (statsBody env) (Db.stats faultless) h := by
  refine gives_memory (Gives.congr (x := do
    let metadataVectors ← onDirectory (onMetadata (MetadataStore.vectorCount faultless.sql))
    let metadataRows ← onDirectory (onMetadata (MetadataStore.rowCount faultless.sql))
    let metadataKeys ← onDirectory (onMetadata (MetadataStore.keys faultless.sql))
    return h.db.statsOf metadataVectors metadataRows metadataKeys) ?_ rfl)
  refine (gives_query (.inl rfl)).andThen fun metadataVectors _ _ => ?_
  refine (gives_query (.inl rfl)).andThen fun metadataRows _ _ => ?_
  exact (gives_query (.inl rfl)).map _

theorem SharedCall.gives (call : SharedCall) (hs : h.db.store.Consistent) :
    Gives env (call.body p env) (call.run p faultless) h := by
  cases call with
  | search query options => exact (gives_search hs query options).map _
  | get id => exact (gives_get id).map _
  | contains id =>
    rw [SharedCall.body]
    exact gives_memory (gives_done rfl)
  | stats => exact gives_stats.map _
  | size =>
    rw [SharedCall.body]
    exact gives_memory (gives_done rfl)

theorem gives_seeAll (calls : List SharedCall) (hs : h.db.store.Consistent) :
    Gives env (seeAllBody p env calls) (seeAll p faultless calls) h := by
  induction calls generalizing h with
  | nil => exact gives_done rfl
  | cons call calls ih => exact (call.gives hs).andThen fun answer clock _ =>
    (ih (h := h.later clock) hs).map _

/-- Every call that only reads. -/
theorem ConcurrentCall.gives {call : ConcurrentCall} (hx : call.exclusive = false)
    (hs : h.db.store.Consistent) : Gives env (call.body p env) (call.run p faultless) h := by
  cases call with
  | read call => exact call.gives hs
  | withSharedAccess body => exact (gives_seeAll body hs).map _
  | _ => cases hx

end Answers

end Calls

end VectorDb.Db
