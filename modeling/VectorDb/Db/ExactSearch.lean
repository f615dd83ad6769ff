import VectorDb.Db.ApproximateSearch
import VectorDb.Db.CompactionAnswers
import VectorDb.Db.MetadataFlag
import VectorDb.Storage.MetadataMatching

/-!
An exact search against its reference: all live vectors in order, then the filter, then
the first of them; and the same filter put to the tables by `filter_ids`.
-/
set_option autoImplicit false

namespace VectorDb.Db

open VectorDb.Lib VectorDb.Storage VectorDb.Index Throwing

/-- `filter_ids`. -/
def filterIds (env : Environment) (filter : Filter) : Call (List VectorId) := do
  let ids ← onDirectory (onMetadata (MetadataStore.matching filter env.sql))
  let h ← get
  return ids.filter h.db.store.contains

/-- Its statement is prepared for this one call, so that it is never stuck. -/
theorem filterIds_steps {env : Environment} (hs : ∀ n, env.sql n .statement = none) (h : Handle)
    (filter : Filter) : (exec (filterIds env filter) h).1 =
      .ok ((MetadataStore.matchingIds filter h.metadata.connection.view).filter
        h.db.store.contains) := by
  simp [filterIds, exec_bind, exec_map, MetadataStore.matching, MetadataStore.sql,
    exec_queryStatement, Connection.failure, hs]

section Reference
variable {L : Type} [LinearOrder L] (p : Platform L)

/-- The live slots in order of their keys. -/
def rankedSlots (metric : Metric) (s : VectorStore) (query : FloatVector) : List (Candidate L) :=
  ((liveSlots s s.slotCount).map fun slot =>
    ⟨slot, (queryOf p metric s query).key slot⟩).insertionSort (NotAfter candidateBetter)

/-- What an exact search is to return. -/
def exactReference (h : Handle) (query : FloatVector) (options : QueryOptions) : List QueryResult :=
  (((rankedSlots p h.db.config.metric h.db.store query).filter fun c =>
    options.filter.matches (h.metadataOf (h.db.store.vectorId c.localId))).take options.k).map
      (resultOf p h.db.config.metric h.db.store options h.metadataOf)

/-- The search returns its reference, and `filter_ids` gives the same ids where there is
room for all of them. -/
structure ExactAnswer (env : Environment) (h : Handle) (query : FloatVector)
    (options : QueryOptions) : Prop where
  results : (exec (search p env query options) h).1 = .ok (exactReference p h query options)
  ids : options.filter.isEmpty = false → h.db.size ≤ options.k →
    ∃ ids, (exec (filterIds env options.filter) h).1 = .ok ids ∧
      ∀ id, id ∈ (exactReference p h query options).map QueryResult.id ↔ id ∈ ids

variable {p} {metric : Metric} {s : VectorStore} {query : FloatVector} {h : Handle}
  {options : QueryOptions}

theorem rankedSlots_perm : (rankedSlots p metric s query).Perm
    ((liveSlots s s.slotCount).map fun slot => ⟨slot, (queryOf p metric s query).key slot⟩) :=
  List.perm_insertionSort _ _

theorem length_liveSlots (hs : s.Consistent) : (liveSlots s s.slotCount).length = s.liveCount := by
  have hlive : (List.range s.slotCount).map s.isLive = s.live := by
    refine List.ext_getElem (by simp [hs.live]) fun i _ hi => ?_
    simp [VectorStore.isLive, List.getD_eq_getElem?_getD, hi]
  rw [hs.liveCount, ← hlive, liveSlots, ← List.countP_eq_length_filter, List.count,
    List.countP_map]
  exact List.countP_congr fun l _ => by simp

theorem length_rankedSlots (hs : s.Consistent) :
    (rankedSlots p metric s query).length = s.liveCount := by
  rw [rankedSlots_perm.length_eq, List.length_map, length_liveSlots hs]

theorem mem_rankedSlots {c : Candidate L} (hc : c ∈ rankedSlots p metric s query) :
    s.isLive c.localId = true := by
  obtain ⟨slot, hslot, rfl⟩ := List.mem_map.mp (rankedSlots_perm.mem_iff.mp hc)
  exact (mem_liveSlots.mp hslot).2

/-- A search that has to look at nothing but the store ranks all of it. -/
theorem search_ranked {k : Nat} (hk : 0 < k) (hmax : k ≤ kMaxCandidates)
    (hquery : query.length = s.dimension) :
    BruteForceIndex.search p.std (accessor p metric s) (queryOf p metric s query) k =
      .ok ((rankedSlots p metric s query).take k) := by
  rw [BruteForceIndex.search_eq p.std _ _ hk hmax hquery]
  have hall : BruteForceIndex.candidates (accessor p metric s) (queryOf p metric s query) 0
      (accessor p metric s).size = (liveSlots s s.slotCount).map fun slot =>
        ⟨slot, (queryOf p metric s query).key slot⟩ := by
    rw [BruteForceIndex.candidates, Nat.sub_zero, ← List.range_eq_range']
    rfl
  rw [hall]
  rfl

/-- The loop over the ranked slots, where the search sees the metadata there is. -/
theorem collected_ranked (hs : s.Consistent) (metadata : VectorId → Metadata) :
    collected p metric s options metadata ((rankedSlots p metric s query).take
        (if options.filter.isEmpty then options.k else s.slotCount)) [] =
      (((rankedSlots p metric s query).filter fun c =>
        options.filter.matches (metadata (s.vectorId c.localId))).take options.k).map
          (resultOf p metric s options metadata) := by
  have hmatches : ((fun r : QueryResult => options.filter.matches r.metadata) ∘
      resultOf p metric s options metadata) =
        fun c => options.filter.matches (metadata (s.vectorId c.localId)) := by
    funext c
    exact lookup_matches metadata _
  rw [collected_eq, List.nil_append, List.length_nil, Nat.sub_zero, List.filter_map, hmatches,
    List.map_take]
  cases hf : options.filter.isEmpty with
  | true =>
    have hall : ∀ m, options.filter.matches m = true := fun m => by
      rw [List.isEmpty_iff.mp hf]
      rfl
    simp [hall, List.take_take]
  | false =>
    have hlen : (rankedSlots p metric s query).length ≤ s.slotCount := by
      rw [length_rankedSlots hs]
      exact hs.liveCount_le
    rw [if_neg (by simp), List.take_of_length_le hlen]

/-- The ids of the reference, where there is room for all of them. -/
theorem mem_exactReference (hs : h.db.store.Consistent) (hroom : h.db.size ≤ options.k)
    (id : VectorId) : id ∈ (exactReference p h query options).map QueryResult.id ↔
      h.db.store.contains id = true ∧ options.filter.matches (h.metadataOf id) = true := by
  have hlen : ((rankedSlots p h.db.config.metric h.db.store query).filter fun c =>
      options.filter.matches (h.metadataOf (h.db.store.vectorId c.localId))).length ≤ options.k :=
    (List.length_filter_le _ _).trans ((length_rankedSlots hs).trans_le hroom)
  rw [exactReference, List.take_of_length_le hlen, List.map_map]
  constructor
  · intro hid
    obtain ⟨c, hc, rfl⟩ := List.mem_map.mp hid
    obtain ⟨hranked, hm⟩ := List.mem_filter.mp hc
    refine ⟨?_, hm⟩
    show (h.db.store.find (h.db.store.vectorId c.localId)).isSome = true
    rw [find_of_isLive hs (mem_rankedSlots hranked), Option.isSome_some]
  · rintro ⟨hcontains, hm⟩
    obtain ⟨slot, hslot⟩ := Option.isSome_iff_exists.mp hcontains
    obtain ⟨hlt, hlive, rfl⟩ := (hs.find_iff id slot).mp hslot
    refine List.mem_map.mpr ⟨⟨slot, (queryOf p h.db.config.metric h.db.store query).key slot⟩,
      List.mem_filter.mpr ⟨rankedSlots_perm.mem_iff.mpr ?_, hm⟩, rfl⟩
    exact List.mem_map_of_mem (mem_liveSlots.mpr ⟨hlt, hlive⟩)

end Reference

section Search
variable {L : Type} [LinearOrder L] (p : Platform L) {h : Handle}

theorem Handle.Flagged.seenMetadata (hfl : h.Flagged) : h.seenMetadata = h.metadataOf := by
  obtain ⟨t, ht, hfl⟩ := hfl
  funext id
  rw [Handle.seenMetadata, Handle.metadataOf, ht.view]
  cases hm : h.db.hasMetadata with
  | true => rfl
  | false => simp [hfl hm, MetadataStore.metadataOf_empty]

/-- The number of vectors that an exact search asks its scan for. -/
def QueryOptions.wanted (options : QueryOptions) (s : VectorStore) : Nat :=
  if options.filter.isEmpty then options.k else s.slotCount

/-- The scan ranks all live vectors if it is asked for at least one, and for no more than a
collector holds. -/
theorem searchCandidates_ranked (hh : HandleSound False h) {query : FloatVector}
    (hquery : validateVector query h.db.config.dimension = .ok ()) {options : QueryOptions}
    (hexact : h.db.SearchesExactly options) :
    (1 ≤ options.wanted h.db.store ∧ options.wanted h.db.store ≤ kMaxCandidates →
      searchCandidates p h.db query options = .ok
        ((rankedSlots p h.db.config.metric h.db.store query).take (options.wanted h.db.store))) ∧
      ((∃ candidates, searchCandidates p h.db query options = .ok candidates) →
        1 ≤ options.wanted h.db.store ∧ options.wanted h.db.store ≤ kMaxCandidates) := by
  have hdim : query.length = h.db.store.dimension :=
    (validateVector_length hquery).trans hh.database.store.dimension.symm
  rw [searchCandidates_exactly p hexact]
  refine ⟨fun ⟨hpos, hmax⟩ => search_ranked hpos hmax hdim, fun ⟨candidates, hok⟩ => ?_⟩
  change BruteForceIndex.search _ _ _ (options.wanted h.db.store) = _ at hok
  constructor
  · refine Nat.pos_of_ne_zero fun hzero => ?_
    rw [hzero, BruteForceIndex.search, if_pos rfl] at hok
    cases hok
  · refine Nat.le_of_not_lt fun hlt => ?_
    rw [BruteForceIndex.search_of_lt p.std _ _ hlt hdim] at hok
    cases hok

/-- An exact search is given its reference if and only if it asks its scan for at least one
vector and no more than a collector holds, and does not look a vector up by a statement
that is stuck. -/
theorem exactAnswer_iff (hr : (runs p TransactionsSucceed).Reachable (.opened h))
    {env : Environment} (hm : env.OnlyMisuse) {query : FloatVector}
    (hquery : validateVector query h.db.config.dimension = .ok ()) {options : QueryOptions}
    (hk : 1 ≤ options.k) (hexact : h.db.SearchesExactly options) :
    ExactAnswer p env h query options ↔
      (if options.filter.isEmpty then options.k ≤ kMaxCandidates else h.db.store.slotCount ≠ 0) ∧
        (h.metadata.connection.stuck .selectByVector = true → h.db.size ≠ 0 →
          h.looksUp options = false) := by
  obtain ⟨hh, hfl⟩ := reachable_flagged p hr
  have hs := hh.database.store.consistent
  obtain ⟨hranked, hwanted⟩ := searchCandidates_ranked p hh hquery hexact
  have hslots : h.db.store.slotCount ≤ kMaxCandidates :=
    (accessor p h.db.config.metric h.db.store).size_le.trans (by decide)
  have hroom : (1 ≤ options.wanted h.db.store ∧ options.wanted h.db.store ≤ kMaxCandidates) ↔
      if options.filter.isEmpty then options.k ≤ kMaxCandidates
        else h.db.store.slotCount ≠ 0 := by
    rw [QueryOptions.wanted]
    split <;> omega
  have hlive : h.db.size ≠ 0 ↔ rankedSlots p h.db.config.metric h.db.store query ≠ [] := by
    rw [← List.length_pos_iff, length_rankedSlots hs, Nat.pos_iff_ne_zero]
    rfl
  rw [← hroom]
  constructor
  · intro hanswer
    have hsearched := (search_spec_view p env h query options).1 _ hanswer.results
    rw [searched, if_neg (by omega), hquery] at hsearched
    have hok := hwanted (by
      cases hc : searchCandidates p h.db query options with
      | ok candidates => exact ⟨candidates, rfl⟩
      | error e =>
        rw [hc] at hsearched
        cases hsearched)
    refine ⟨hok, fun hstuck hsize => Bool.eq_false_of_not_eq_true fun hlook => ?_⟩
    obtain ⟨c, candidates, hcons⟩ := List.exists_cons_of_ne_nil (hlive.mp hsize)
    obtain ⟨n, hn⟩ := Nat.exists_eq_add_of_le' hok.1
    have hcandidates := hranked hok
    rw [hcons, hn, List.take_succ_cons] at hcandidates
    obtain ⟨e, he⟩ := search_stuck p hm.1 hstuck hlook (by omega) hcandidates hquery
    cases hanswer.results.symm.trans he
  · rintro ⟨hok, hfree⟩
    have hsearch : (exec (search p env query options) h).1 = searched p h.db.config h.db.store
        h.seenMetadata (searchCandidates p h.db query options) query options := by
      cases hstuck : h.metadata.connection.stuck .selectByVector with
      | false => exact search_answers p (by rw [hstuck]; exact hm.1.answers) query options
      | true =>
        refine search_unlooked p env fun candidates hc => ?_
        by_cases hsize : h.db.size = 0
        · left
          rw [hranked hok, not_not.mp (mt hlive.mpr (not_not.mpr hsize))] at hc
          cases hc
          exact List.take_nil
        · exact .inr (hfree hstuck hsize)
    rw [searched, if_neg (by omega), hquery, hranked hok, hfl.seenMetadata] at hsearch
    refine ⟨hsearch.trans (congrArg Except.ok (collected_ranked hs _)), fun hfilter hroom => ?_⟩
    refine ⟨_, filterIds_steps (fun n => hm.1.others n _ (by simp)) h options.filter, fun id => ?_⟩
    rw [mem_exactReference hs hroom, List.mem_filter, MetadataStore.mem_matchingIds hfilter,
      and_comm]
    rfl

end Search

/-- `a == null`. -/
def oneCondition : Filter := [⟨[97], .equal, .null⟩]

/-- Three vectors, two of them with metadata, of which the first is removed. -/
def withConditions : List (Event × Environment) :=
  [(.create unitConfig unitConfig_sized, faultless),
    (.call (.insert 0 [Component.one] (Std.ExtTreeMap.insert ∅ [97] .null)), faultless),
    (.call (.insert 1 [Component.zero] ∅), faultless),
    (.call (.insert 2 [Component.one] (Std.ExtTreeMap.insert ∅ [97] .null)), faultless),
    (.call (.remove 0), faultless)]

theorem exactAnswer_three_vectors : ∃ h : Handle,
    h.db.store.slotCount = 3 ∧ h.db.store.tombstoneCount = 1 ∧ h.db.hasMetadata = true ∧
      ExactAnswer unitPlatform misuseRefused h [Component.one] ⟨2, 0, oneCondition, true, 0, true⟩ := by
  obtain ⟨h, hr, htest⟩ := exists_reachable unitPlatform TransactionsSucceed
    (by simp [withConditions, TransactionsSucceed, TransactionCallsSucceed, faultless])
    (show (State.afterAll unitPlatform withConditions .absent).handle?.map (fun h =>
      decide (h.db.store.slotCount = 3 ∧ h.db.store.tombstoneCount = 1 ∧ h.db.hasMetadata = true ∧
        h.metadata.connection.stuck .selectByVector = false ∧ h.db.config.dimension = 1)) =
          some true by decide +kernel)
  obtain ⟨hcount, htomb, hmetadata, hfree, hdim⟩ := of_decide_eq_true htest
  refine ⟨h, hcount, htomb, hmetadata, (exactAnswer_iff unitPlatform hr onlyMisuse_misuseRefused ?_
    (by decide) (.inl rfl)).mpr ⟨?_, fun hstuck => ?_⟩⟩
  · rw [hdim]
    decide
  · rw [hcount]
    decide
  · rw [hfree] at hstuck
    cases hstuck

/-- A new database does not answer an exact search with a filter. -/
theorem new_database_no_exactAnswer :
    ¬ ∀ (h : Handle) (env : Environment) (query : FloatVector) (options : QueryOptions),
      (runs unitPlatform TransactionsSucceed).Reachable (.opened h) → env.OnlyMisuse →
      validateVector query h.db.config.dimension = .ok () → 1 ≤ options.k →
      h.db.SearchesExactly options → ExactAnswer unitPlatform env h query options := by
  intro hall
  obtain ⟨h, hr, htest⟩ := exists_reachable unitPlatform TransactionsSucceed
    (by simp [TransactionsSucceed, TransactionCallsSucceed, faultless])
    (show (State.afterAll unitPlatform [(.create unitConfig unitConfig_sized, faultless)]
      .absent).handle?.map (fun h => decide (h.db.store.slotCount = 0 ∧
        h.db.config.dimension = 1)) = some true by decide +kernel)
  obtain ⟨hzero, hdim⟩ := of_decide_eq_true htest
  have hquery : validateVector [Component.one] h.db.config.dimension = .ok () := by
    rw [hdim]
    decide
  have hanswer := hall h misuseRefused [Component.one] ⟨1, 0, oneCondition, true, 0, true⟩ hr
    onlyMisuse_misuseRefused hquery le_rfl (.inl rfl)
  have hsearched := (search_spec_view unitPlatform misuseRefused h [Component.one] _).1 _
    hanswer.results
  rw [searched, if_neg (by decide), hquery, searchCandidates_exactly unitPlatform (.inl rfl)]
    at hsearched
  simp only [oneCondition, hzero, BruteForceIndex.search, List.isEmpty_cons, Bool.false_eq_true,
    if_false, if_true] at hsearched
  cases hsearched

end VectorDb.Db
