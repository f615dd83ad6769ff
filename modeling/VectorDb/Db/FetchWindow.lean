import VectorDb.Db.ApproximateSearch
import VectorDb.Storage.MetadataErrors

/-!
How many candidates a filtered search through the graph asks its index for.
-/
set_option autoImplicit false

namespace VectorDb.Db

open VectorDb.Lib VectorDb.Storage VectorDb.Index Throwing

namespace QueryOptions

/-- What the index is asked for. -/
def params (options : QueryOptions) : SearchParams :=
  ⟨if options.filter.isEmpty then options.k else Persistence.wrap64 (options.k * options.oversample),
    options.efSearch⟩

variable {options : QueryOptions}

theorem params_k (hfilter : options.filter.isEmpty = false)
    (hfits : options.k * options.oversample < 18446744073709551616) :
    options.params.k = options.k * options.oversample := by
  simp [params, hfilter, Persistence.wrap64, Nat.mod_eq_of_lt hfits]

theorem le_params_k (hfilter : options.filter.isEmpty = false)
    (hfits : options.k * options.oversample < 18446744073709551616) :
    options.k ≤ options.params.k := by
  rw [params_k hfilter hfits]
  exact Nat.le_mul_of_pos_right _ options.oversample_pos

/-- A factor that is given is the one that is used. -/
theorem oversample_of_pos (h : 0 < options.filterOversample) :
    options.oversample = options.filterOversample := if_pos h

/-- The same search with another factor. -/
def withOversample (options : QueryOptions) (factor : Nat) : QueryOptions :=
  { options with filterOversample := factor }

theorem params_k_mono (hfilter : options.filter.isEmpty = false)
    (hpos : 0 < options.filterOversample) {factor : Nat} (hle : options.filterOversample ≤ factor)
    (hfits : options.k * factor < 18446744073709551616) :
    options.params.k ≤ (options.withOversample factor).params.k := by
  have hfactor : (options.withOversample factor).oversample = factor :=
    oversample_of_pos (hpos.trans_le hle)
  have hmul : options.k * options.oversample ≤ options.k * factor := by
    rw [oversample_of_pos hpos]
    exact Nat.mul_le_mul_left _ hle
  have hraised : (options.withOversample factor).k * (options.withOversample factor).oversample =
      options.k * factor := by rw [hfactor]; rfl
  rw [params_k hfilter (hmul.trans_lt hfits),
    @params_k (options.withOversample factor) hfilter (hraised.trans_lt hfits), hraised]
  exact hmul

end QueryOptions

section Search
variable {K : Type} [BEq K] [LT K] [DecidableLT K] (p : Platform K) {h : Handle} {g : HnswIndex}
  {query : FloatVector} {options : QueryOptions}

theorem searchCandidates_approximate (hindex : h.db.index = .hnsw g)
    (htype : h.db.config.indexType = .hnsw) (hexact : options.exact = false) :
    searchCandidates p h.db query options =
      g.search p.std (accessor p h.db.config.metric h.db.store)
        (queryOf p h.db.config.metric h.db.store query) options.params := by
  simp only [searchCandidates, hexact, htype, hindex]
  rfl

/-- The error a search for nothing ends with. -/
def noResultsWanted : Error := .invalidArgument "search requires k >= 1"

theorem throwsOnly_collectResults (env : Environment) (db : Database) (options : QueryOptions)
    (candidates : List (Candidate K)) (results : List QueryResult) :
    ThrowsOnly (· ≠ noResultsWanted) (collectResults p env db options candidates results) := by
  induction candidates generalizing results with
  | nil => exact .pure _
  | cons c candidates ih =>
    have hget : ThrowsOnly (· ≠ noResultsWanted)
        (onMetadata (MetadataStore.get env.sql (db.store.vectorId c.localId))) := by
      refine ThrowsOnly.on (ThrowsOnly.on (ThrowsOnly.bind ?_ fun _ => ThrowsOnly.get.bind
        fun _ => .pure _))
      intro s e he
      rw [exec_bindAndStep] at he
      cases hf : s.failure env.sql (some .selectByVector) with
      | none =>
        rw [hf] at he
        cases he
      | some detail =>
        rw [hf] at he
        cases he
        simp [noResultsWanted]
    exact .ite (.pure _) (.ite (hget.bind fun _ => .ite (ih _) (ih _)) (.ite (ih _) (ih _)))

theorem validateVector_ne_noResultsWanted (vector : FloatVector) (dimension : Dimension) :
    validateVector vector dimension ≠ .error noResultsWanted := by
  unfold validateVector noResultsWanted
  split
  · simp
  · split <;> simp

theorem HnswIndex.search_ne_noResultsWanted (std : StdAlgorithms (Candidate K)) (g : HnswIndex)
    (view : SlotView K) (q : Query K) {params : SearchParams} (hk : params.k ≠ 0) :
    g.search std view q params ≠ .error noResultsWanted := by
  rw [Index.HnswIndex.search, if_neg hk]
  unfold noResultsWanted
  split <;> simp

/-- A search that asks its index for something is not told that it wants nothing. -/
theorem search_ne_noResultsWanted (env : Environment) (hindex : h.db.index = .hnsw g)
    (htype : h.db.config.indexType = .hnsw) (hexact : options.exact = false)
    (hk : options.k ≠ 0) (hparams : options.params.k ≠ 0) :
    (exec (search p env query options) h).1 ≠ .error noResultsWanted := by
  intro herror
  simp only [search, if_neg hk, exec_bind, exec_get, exec_fromExcept] at herror
  cases hv : validateVector query h.db.config.dimension with
  | error e =>
    rw [hv] at herror
    cases herror
    exact validateVector_ne_noResultsWanted _ _ hv
  | ok u =>
    rw [hv] at herror
    dsimp only at herror
    rw [searchCandidates_approximate p hindex htype hexact] at herror
    cases hc : g.search p.std (accessor p h.db.config.metric h.db.store)
        (queryOf p h.db.config.metric h.db.store query) options.params with
    | error e =>
      rw [hc] at herror
      cases herror
      exact HnswIndex.search_ne_noResultsWanted _ _ _ _ hparams hc
    | ok candidates =>
      rw [hc] at herror
      exact (throwsOnly_collectResults p env h.db options candidates []).on _ _ herror rfl

/-- While the product of what is wanted and the factor fits its word, a filtered search
through the graph asks for that many candidates, and a larger factor for no fewer. -/
theorem search_window (hindex : h.db.index = .hnsw g) (htype : h.db.config.indexType = .hnsw)
    (hexact : options.exact = false) (hfilter : options.filter.isEmpty = false)
    (hk : 1 ≤ options.k) (hfits : options.k * options.oversample < 18446744073709551616) :
    searchCandidates p h.db query options =
        g.search p.std (accessor p h.db.config.metric h.db.store)
          (queryOf p h.db.config.metric h.db.store query) options.params ∧
      options.params.k = options.k * options.oversample ∧ options.k ≤ options.params.k ∧
      (∀ env : Environment,
        (exec (search p env query options) h).1 ≠ .error noResultsWanted) ∧
      ∀ factor, 0 < options.filterOversample → options.filterOversample ≤ factor →
        options.k * factor < 18446744073709551616 →
        options.params.k ≤ (options.withOversample factor).params.k := by
  have hle := QueryOptions.le_params_k hfilter hfits
  refine ⟨searchCandidates_approximate p hindex htype hexact, QueryOptions.params_k hfilter hfits,
    hle, fun env => ?_, fun factor hpos hfactor hproduct =>
      QueryOptions.params_k_mono hfilter hpos hfactor hproduct⟩
  exact search_ne_noResultsWanted p env hindex htype hexact (by omega) (by omega)

end Search

/-- A filtered search through the graph for `k` vectors. -/
def filteredSearch (k factor : Nat) : QueryOptions :=
  ⟨k, 0, [⟨[97], .equal, .integer 1#64⟩], false, factor, true⟩

theorem exists_unitIndex : ∃ (h : Handle) (g : HnswIndex), h.db.index = .hnsw g ∧
    h.db.config.indexType = .hnsw ∧ h.db.config.dimension = 1 := by
  obtain ⟨h₀, h₁, hone⟩ := exists_unitVector ∅ (by simp)
  have hr := hone.reachable unitPlatform (fun _ _ _ => True) unitConfig_sized trivial trivial
  have htype : h₁.db.config.indexType = .hnsw := by
    rw [hone.config]
    rfl
  obtain ⟨g, hg⟩ := (reachable_sound unitPlatform hr).exists_hnsw htype
  exact ⟨h₁, g, hg, htype, by rw [hone.config]; rfl⟩

theorem search_window_one_vector : ∃ h : Handle,
    (filteredSearch 1 2).params.k ≤ ((filteredSearch 1 2).withOversample 3).params.k ∧
      (exec (search unitPlatform faultless [Component.one] (filteredSearch 1 2)) h).1 ≠
        .error noResultsWanted := by
  obtain ⟨h, g, hindex, htype, -⟩ := exists_unitIndex
  obtain ⟨-, -, -, hsearch, hraised⟩ := @search_window _ _ _ _ unitPlatform h g
    [Component.one] (filteredSearch 1 2) hindex htype rfl rfl le_rfl (by decide)
  exact ⟨h, hraised 3 (by decide) (by decide) (by decide), hsearch faultless⟩

/-- Half of what a word counts, twice, is nothing; and a factor of one asks for fewer than
the default does. -/
theorem filtered_windows_shrink :
    (¬ ∀ (h : Handle) (g : HnswIndex) (query : FloatVector) (options : QueryOptions),
      h.db.index = .hnsw g → h.db.config.indexType = .hnsw → options.exact = false →
      options.filter.isEmpty = false → 1 ≤ options.k → options.k < 18446744073709551616 →
      options.filterOversample < 18446744073709551616 →
      options.k ≤ options.params.k ∧
        (exec (search unitPlatform faultless query options) h).1 ≠ .error noResultsWanted) ∧
    ¬ ∀ (options : QueryOptions) (factor : Nat), options.filter.isEmpty = false →
      1 ≤ options.k → options.filterOversample ≤ factor → factor < 18446744073709551616 →
      options.params.k ≤ (options.withOversample factor).params.k := by
  refine ⟨fun hall => ?_, fun hall => ?_⟩
  · obtain ⟨h, g, hindex, htype, hdim⟩ := exists_unitIndex
    have hsearch := (hall h g [Component.one] (filteredSearch 9223372036854775808 2) hindex htype
      rfl rfl (by decide) (by decide) (by decide)).2
    have hvalid : validateVector [Component.one] 1 = .ok () := by decide
    have hk : (filteredSearch 9223372036854775808 2).k ≠ 0 := by decide
    refine hsearch ?_
    simp only [search, if_neg hk, exec_bind, exec_get, exec_fromExcept, hdim, hvalid]
    rw [searchCandidates_approximate unitPlatform hindex htype rfl]
    rfl
  · exact absurd (hall (filteredSearch 1 0) 1 rfl le_rfl (by decide) (by decide)) (by decide)

end VectorDb.Db
