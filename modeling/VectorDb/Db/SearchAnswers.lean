import VectorDb.Db.Lossless
import VectorDb.Db.WriteOutcome

/-!
What a search answers where nothing fails, whatever earlier calls have left open: the
candidates, with what the tables have for each, as far as the filter lets them pass.
-/
set_option autoImplicit false

namespace VectorDb.Db

open VectorDb.Lib VectorDb.Storage VectorDb.Index Throwing

/-- What a search takes for the metadata of an id. -/
def Handle.seenMetadata (h : Handle) (id : VectorId) : Metadata :=
  if h.db.hasMetadata then h.metadataOf id else ∅

/-- What a search puts into a result. -/
def QueryOptions.lookup (options : QueryOptions) (metadata : VectorId → Metadata) (id : VectorId) :
    Metadata :=
  if !options.filter.isEmpty || options.includeMetadata then metadata id else ∅

/-- Whether a search looks its candidates up in the tables. -/
def Handle.looksUp (h : Handle) (options : QueryOptions) : Bool :=
  h.db.hasMetadata && (!options.filter.isEmpty || options.includeMetadata)

/-- An exact search does not look at the index. -/
def Database.SearchesExactly (db : Database) (options : QueryOptions) : Prop :=
  options.exact = true ∨ db.config.indexType = .bruteForce

section Answers
variable {K : Type} [BEq K] [LT K] [DecidableLT K] (p : Platform K)

def resultOf (metric : Metric) (s : VectorStore) (options : QueryOptions)
    (metadata : VectorId → Metadata) (c : Candidate K) : QueryResult :=
  ⟨s.vectorId c.localId, p.scoreFromRankKey metric c.key,
    options.lookup metadata (s.vectorId c.localId)⟩

theorem collected_eq (metric : Metric) (s : VectorStore) (options : QueryOptions)
    (metadata : VectorId → Metadata) (candidates : List (Candidate K)) (results : List QueryResult) :
    collected p metric s options metadata candidates results =
      results ++ ((candidates.map (resultOf p metric s options metadata)).filter
        fun r => options.filter.matches r.metadata).take (options.k - results.length) := by
  induction candidates generalizing results with
  | nil => simp [collected]
  | cons c candidates ih =>
    unfold collected
    by_cases hk : options.k ≤ results.length
    · simp [hk]
    · obtain ⟨n, hn⟩ : ∃ n, options.k - results.length = n + 1 := ⟨_, (Nat.succ_pred_eq_of_pos (by omega)).symm⟩
      have hrest : options.k - (results.length + 1) = n := by omega
      rw [if_neg hk, List.map_cons, List.filter_cons]
      change (if options.filter.matches (resultOf p metric s options metadata c).metadata then
        collected p metric s options metadata candidates
          (results ++ [resultOf p metric s options metadata c]) else _) = _
      split
      · rw [ih, hn, List.take_succ_cons, List.append_assoc, List.length_append,
          List.length_singleton, hrest]
        rfl
      · exact ih results

theorem get_reads (env : Environment) (u : Tables) (stuck : Bool) (id : VectorId) :
    Triple (fun d : Directory => d.metadata.connection.view = u ∧
        d.metadata.connection.stuck .selectByVector = stuck)
      (onMetadata (MetadataStore.get env.sql id))
      (fun r d => r = MetadataStore.metadataOf (u.rows id) ∧ d.metadata.connection.view = u ∧
        d.metadata.connection.stuck .selectByVector = stuck)
      (fun _ _ => ¬ env.sql.Answers stuck) := by
  rintro d ⟨rfl, rfl⟩
  simp only [MetadataStore.get, MetadataStore.sql, exec_onMetadata, exec_on, exec_queryStatement]
  cases hf : d.metadata.connection.failure env.sql (some .selectByVector) with
  | none => exact ⟨rfl, rfl, rfl⟩
  | some detail =>
    intro ha
    rw [ha.failure] at hf
    cases hf

/-- A search that returns gives what the tables make of its candidates, and one whose
reads of the tables do not fail returns it, or the error of a check. -/
theorem search_spec_view (env : Environment) (h : Handle) (query : FloatVector)
    (options : QueryOptions) :
    (∀ results, (exec (search p env query options) h).1 = .ok results →
        searched p h.db.config h.db.store h.seenMetadata
          (searchCandidates p h.db query options) query options = .ok results) ∧
      (env.sql.Answers (h.metadata.connection.stuck .selectByVector) →
        (exec (search p env query options) h).1 = searched p h.db.config h.db.store h.seenMetadata
          (searchCandidates p h.db query options) query options) := by
  unfold search searched
  by_cases hk : options.k = 0
  · simp only [hk, if_true, exec_bind, exec_throw]
    exact ⟨fun _ hr => (by cases hr), fun _ => trivial⟩
  simp only [hk, if_false, exec_bind, exec_get, exec_fromExcept]
  cases hv : validateVector query h.db.config.dimension with
  | error e => exact ⟨fun _ hr => (by cases hr), fun _ => rfl⟩
  | ok u =>
    cases hc : searchCandidates p h.db query options with
    | error e => exact ⟨fun _ hr => (by cases hr), fun _ => rfl⟩
    | ok candidates =>
      have hreads := collectResults_reads p env h.db
        (get_reads env h.metadata.connection.view (h.metadata.connection.stuck .selectByVector))
        options candidates [] h.toDirectory ⟨rfl, rfl⟩
      simp only [exec_onDirectory]
      rcases hexec : exec (collectResults p env h.db options candidates []) h.toDirectory with ⟨r, d⟩
      rw [hexec] at hreads
      cases r with
      | error e => exact ⟨fun _ hr => (by cases hr), fun ha => absurd ha hreads⟩
      | ok r =>
        rw [hreads.1]
        exact ⟨fun _ hr => hr, fun _ => rfl⟩

/-- A search whose reads of the tables do not fail. -/
theorem search_answers {env : Environment} {h : Handle}
    (ha : env.sql.Answers (h.metadata.connection.stuck .selectByVector)) (query : FloatVector)
    (options : QueryOptions) :
    (exec (search p env query options) h).1 = searched p h.db.config h.db.store h.seenMetadata
      (searchCandidates p h.db query options) query options :=
  (search_spec_view p env h query options).2 ha

/-- A search where nothing fails. -/
theorem search_quiet {env : Environment} (hq : env.Quiet) (h : Handle) (query : FloatVector)
    (options : QueryOptions) :
    (exec (search p env query options) h).1 = searched p h.db.config h.db.store h.seenMetadata
      (searchCandidates p h.db query options) query options :=
  search_answers p (hq.1.answers _) query options

/-- Where the shared `SELECT` is stuck, a search fails at the first vector it is to
look up. -/
theorem search_stuck {env : Environment} (hm : env.sql.OnlyMisuse) {h : Handle}
    (hstuck : h.metadata.connection.stuck .selectByVector = true)
    {query : FloatVector} {options : QueryOptions} (hlook : h.looksUp options = true)
    (hk : options.k ≠ 0)
    {c : Candidate K} {candidates : List (Candidate K)}
    (hcandidates : searchCandidates p h.db query options = .ok (c :: candidates))
    (hquery : validateVector query h.db.config.dimension = .ok ()) :
    ∃ e, (exec (search p env query options) h).1 = .error e := by
  obtain ⟨detail, hf⟩ := hm.failure_stuck h.metadata.connection hstuck
  have hpos : ¬ options.k ≤ ([] : List QueryResult).length := by
    rw [List.length_nil]
    omega
  rw [Handle.looksUp] at hlook
  refine ⟨.metadata detail, ?_⟩
  simp only [search, hk, if_false, exec_bind, exec_get, hquery, exec_fromExcept, hcandidates,
    exec_onDirectory, collectResults, hpos, hlook, if_true, exec_onMetadata,
    MetadataStore.get, MetadataStore.sql, exec_on, exec_queryStatement, hf]

theorem collectResults_unlooked {h : Handle} {options : QueryOptions}
    (hno : h.looksUp options = false) (env env' : Environment) (candidates : List (Candidate K))
    (results : List QueryResult) : collectResults p env h.db options candidates results =
      collectResults p env' h.db options candidates results := by
  rw [Handle.looksUp] at hno
  induction candidates generalizing results with
  | nil => rfl
  | cons c candidates ih =>
    unfold collectResults
    simp only [hno, Bool.false_eq_true, if_false, ih]

/-- A search that looks nothing up does not ask SQLite. -/
theorem search_unlooked (env : Environment) {h : Handle} {query : FloatVector}
    {options : QueryOptions} (hno : ∀ candidates, searchCandidates p h.db query options =
      .ok candidates → candidates = [] ∨ h.looksUp options = false) :
    (exec (search p env query options) h).1 = searched p h.db.config h.db.store h.seenMetadata
      (searchCandidates p h.db query options) query options := by
  rw [← search_quiet p quiet_faultless]
  unfold search
  by_cases hk : options.k = 0
  · simp only [hk, if_true, exec_bind, exec_throw]
  simp only [hk, if_false, exec_bind, exec_get, exec_fromExcept]
  cases hc : searchCandidates p h.db query options with
  | error e => cases validateVector query h.db.config.dimension <;> rfl
  | ok candidates =>
    rcases hno candidates hc with rfl | hlook
    · rfl
    · simp only [collectResults_unlooked p hlook env faultless]

end Answers

end VectorDb.Db
