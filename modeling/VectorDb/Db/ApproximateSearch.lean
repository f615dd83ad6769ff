import VectorDb.Db.SearchAnswers

/-!
What a search through the graph may be trusted with: its results are live vectors,
each once, with their own scores, in order and within the filter, whatever the graph
looks like.
-/
set_option autoImplicit false

namespace VectorDb.Db

open VectorDb.Lib VectorDb.Storage VectorDb.Index Throwing

section Results
variable {L : Type} [LinearOrder L] (p : Platform L)

/-- Candidates in rising order, each a vector that is found by its id, with its key. -/
structure Ranked (metric : Metric) (s : VectorStore) (query : FloatVector)
    (found : List (Candidate L)) : Prop where
  better : found.Pairwise fun a b => candidateBetter a b = true
  live : ∀ c ∈ found, s.find (s.vectorId c.localId) = some c.localId
  key : ∀ c ∈ found, c.key = (queryOf p metric s query).key c.localId

/-- Results that a search of `h` may give. -/
structure SoundResults (h : Handle) (query : FloatVector) (options : QueryOptions)
    (results : List QueryResult) : Prop where
  distinct : (results.map QueryResult.id).Nodup
  live : ∀ r ∈ results, h.db.store.contains r.id = true
  length_le : results.length ≤ options.k
  filtered : ∀ r ∈ results, options.filter.matches (h.metadataOf r.id) = true
  ranked : ∃ found : List (Candidate L), Ranked p h.db.config.metric h.db.store query found ∧
    results.map (fun r => (r.id, r.score)) = found.map fun c =>
      (h.db.store.vectorId c.localId, p.scoreFromRankKey h.db.config.metric c.key)

variable {p} {metric : Metric} {s : VectorStore} {query : FloatVector}
  {found : List (Candidate L)}

theorem Ranked.sublist {kept : List (Candidate L)} (hf : Ranked p metric s query found)
    (hsub : kept.Sublist found) : Ranked p metric s query kept :=
  ⟨hf.better.sublist hsub, fun c hc => hf.live c (hsub.subset hc),
    fun c hc => hf.key c (hsub.subset hc)⟩

theorem Ranked.nodup (hf : Ranked p metric s query found) :
    (found.map fun c => s.vectorId c.localId).Nodup := by
  rw [List.Nodup, List.pairwise_map]
  refine hf.better.imp_of_mem fun ha hb hab hid => ?_
  have hslot : (_ : LocalId) = _ := Option.some.inj
    ((hf.live _ ha).symm.trans ((congrArg s.find hid).trans (hf.live _ hb)))
  have hkey := (hf.key _ ha).trans ((congrArg _ hslot).trans (hf.key _ hb).symm)
  rw [candidateBetter_iff, hslot, hkey] at hab
  exact lt_irrefl _ hab

/-- A live slot is found by its id. -/
theorem find_of_isLive (hs : s.Consistent) {l : LocalId} (hl : s.isLive l = true) :
    s.find (s.vectorId l) = some l := by
  have hlt : l < s.slotCount := by
    rw [← hs.live]
    by_contra hge
    rw [VectorStore.isLive, List.getD_eq_default _ _ (Nat.le_of_not_lt hge)] at hl
    cases hl
  exact (hs.find_iff _ l).mpr ⟨hlt, hl, rfl⟩

/-- The filter looks at the metadata of the vector, looked up or not. -/
theorem lookup_matches {options : QueryOptions} (metadata : VectorId → Metadata) (id : VectorId) :
    options.filter.matches (options.lookup metadata id) = options.filter.matches (metadata id) := by
  cases hf : options.filter.isEmpty with
  | true =>
    rw [List.isEmpty_iff.mp hf]
    rfl
  | false => rw [QueryOptions.lookup, hf, Bool.not_false, Bool.true_or, if_pos rfl]

theorem matches_of_lookup {h : Handle} {options : QueryOptions} {id : VectorId}
    (hm : options.filter.matches (options.lookup h.seenMetadata id) = true) :
    options.filter.matches (h.metadataOf id) = true := by
  rw [lookup_matches, Handle.seenMetadata] at hm
  split at hm
  · exact hm
  · cases hf : options.filter.isEmpty with
    | true =>
      rw [List.isEmpty_iff.mp hf]
      rfl
    | false =>
      rw [Filter.matches_empty hf] at hm
      cases hm

/-- What the loop makes of ranked candidates. -/
theorem Ranked.soundResults {h : Handle} {options : QueryOptions}
    (hf : Ranked p h.db.config.metric h.db.store query found) :
    SoundResults p h query options (collected p h.db.config.metric h.db.store options
      h.seenMetadata found []) := by
  rw [collected_eq, List.nil_append, List.length_nil, Nat.sub_zero, List.filter_map, ← List.map_take]
  have hsub : ((found.filter ((fun r => options.filter.matches r.metadata) ∘ resultOf p
      h.db.config.metric h.db.store options h.seenMetadata)).take options.k).Sublist found :=
    (List.take_sublist _ _).trans List.filter_sublist
  have hkept := hf.sublist hsub
  refine ⟨?_, fun r hr => ?_, ?_, fun r hr => ?_, _, hkept, ?_⟩
  · rw [List.map_map]
    exact hkept.nodup
  · obtain ⟨c, hc, rfl⟩ := List.mem_map.mp hr
    show (h.db.store.find (h.db.store.vectorId c.localId)).isSome = true
    rw [hkept.live c hc, Option.isSome_some]
  · rw [List.length_map]
    exact List.length_take_le _ _
  · obtain ⟨c, hc, rfl⟩ := List.mem_map.mp hr
    exact matches_of_lookup (List.mem_filter.mp (List.mem_of_mem_take hc)).2
  · rw [List.map_map]
    rfl

end Results

section Search
variable {L : Type} [LinearOrder L] (p : Platform L) {h : Handle}

/-- How many candidates are fetched for each result that is wanted. -/
def QueryOptions.oversample (options : QueryOptions) : Nat :=
  if 0 < options.filterOversample then options.filterOversample else kDefaultFilterOversample

theorem QueryOptions.oversample_pos (options : QueryOptions) : 0 < options.oversample := by
  unfold oversample
  split
  next h => exact h
  next => decide

/-- A database configured for a graph has one. -/
theorem HandleSound.exists_hnsw {b : Prop} (hh : HandleSound b h)
    (htype : h.db.config.indexType = .hnsw) : ∃ g, h.db.index = .hnsw g := by
  have hfits := hh.database.index
  cases hi : h.db.index with
  | bruteForce =>
    rw [hi, htype] at hfits
    cases hfits
  | hnsw g => exact ⟨g, rfl⟩

/-- A search through the graph of any reachable database gives sound results, and it returns
them while the shared `SELECT` is not stuck. -/
theorem search_soundResults (hr : (runs p fun _ _ _ => True).Reachable (.opened h))
    (htype : h.db.config.indexType = .hnsw) (env : Environment) {query : FloatVector}
    (hquery : validateVector query h.db.config.dimension = .ok ()) {options : QueryOptions}
    (hexact : options.exact = false) (hk : 1 ≤ options.k)
    (hfetch : options.k * options.oversample < 18446744073709551616) :
    (∀ results, (exec (search p env query options) h).1 = .ok results →
      SoundResults p h query options results) ∧
    (env.sql.OnlyMisuse → h.metadata.connection.stuck .selectByVector = false →
      ∃ results, (exec (search p env query options) h).1 = .ok results) := by
  have hh : HandleSound False h := reachable_sound p hr
  have hs := hh.database.store
  obtain ⟨g, hg⟩ := hh.exists_hnsw htype
  generalize hfetched : (if options.filter.isEmpty then options.k else
    Persistence.wrap64 (options.k * options.oversample)) = fetch
  have hpos : fetch ≠ 0 := by
    have hover := Nat.mul_pos hk options.oversample_pos
    rw [← hfetched]
    split
    · omega
    · rw [Persistence.wrap64, Nat.mod_eq_of_lt hfetch]
      omega
  have hdim : (queryOf p h.db.config.metric h.db.store query).size =
      (accessor p h.db.config.metric h.db.store).dimension :=
    (validateVector_length hquery).trans hs.dimension.symm
  obtain ⟨found, hfound, hbetter, hall⟩ := HnswIndex.search_found p.std g
    ⟨fetch, options.efSearch⟩ hpos hdim
  have hcandidates : searchCandidates p h.db query options = .ok found := by
    rw [← hfound, ← hfetched]
    simp only [searchCandidates, hexact, htype, hg, QueryOptions.oversample]
    rfl
  have hranked : Ranked p h.db.config.metric h.db.store query found :=
    ⟨hbetter, fun c hc => find_of_isLive hs.consistent (hall c hc).1, fun c hc => (hall c hc).2⟩
  have hsearched : searched p h.db.config h.db.store h.seenMetadata
      (searchCandidates p h.db query options) query options = .ok (collected p h.db.config.metric
        h.db.store options h.seenMetadata found []) := by
    rw [searched, if_neg (by omega), hquery, hcandidates]
    rfl
  refine ⟨fun results hresults => ?_, fun hm hfree => ?_⟩
  · have hsame := hsearched.symm.trans ((search_spec_view p env h query options).1 _ hresults)
    cases hsame
    exact hranked.soundResults
  · exact ⟨_, (search_answers p (hfree ▸ hm.answers) query options).trans hsearched⟩

end Search

/-- Four vectors, of which one is replaced and one is removed. -/
def replacedAndRemoved : List (Event × Environment) :=
  [(.create unitConfig unitConfig_sized, faultless),
    (.call (.insert 7 [Component.zero] ∅), faultless),
    (.call (.insert 5 [Component.zero] ∅), faultless),
    (.call (.insert 2 [Component.one] ∅), faultless),
    (.call (.insert 9 [Component.one] ∅), faultless),
    (.call (.upsert 5 [Component.one] ∅), faultless), (.call (.remove 2), faultless)]

/-- The nearer two come first, in the order of their slots. -/
theorem search_soundResults_four_vectors : ∃ (h : Handle) (results : List QueryResult),
    (exec (search unitPlatform misuseRefused [Component.one] ⟨3, 5, [], false, 0, true⟩) h).1 =
        .ok results ∧
      results.map QueryResult.id = [5, 9, 7] ∧
      SoundResults unitPlatform h [Component.one] ⟨3, 5, [], false, 0, true⟩ results := by
  obtain ⟨h, hr, htest⟩ := exists_reachable unitPlatform
    (fun _ _ _ => True) (fun _ _ _ => trivial)
    (show (State.afterAll unitPlatform replacedAndRemoved .absent).handle?.map (fun h =>
      decide (h.db.config.indexType = .hnsw ∧ h.db.config.dimension = 1 ∧
        h.metadata.connection.stuck .selectByVector = false ∧
        (exec (search unitPlatform misuseRefused [Component.one] ⟨3, 5, [], false, 0, true⟩)
          h).1.toOption.map (List.map QueryResult.id) = some [5, 9, 7])) = some true by
      decide +kernel)
  obtain ⟨htype, hdim, hfree, hids⟩ := of_decide_eq_true htest
  have hquery : validateVector [Component.one] h.db.config.dimension = .ok () := by
    rw [hdim]
    decide
  obtain ⟨hsound, hreturns⟩ := @search_soundResults _ _ unitPlatform h hr htype misuseRefused _ hquery
    ⟨3, 5, [], false, 0, true⟩ rfl (by decide) (by decide)
  obtain ⟨results, hresults⟩ := hreturns onlyMisuse_misuseRefused.1 hfree
  rw [hresults] at hids
  exact ⟨h, results, hresults, Option.some.inj hids, hsound results hresults⟩

end VectorDb.Db
