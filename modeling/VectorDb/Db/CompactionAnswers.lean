import VectorDb.Db.Lockstep
import VectorDb.Db.ReadBack
import VectorDb.Db.SearchAnswers

/-!
Compaction cannot be told from the answers of a database: the live slots move up, in
their order, and what is asked by id or by distance finds them there.
-/
set_option autoImplicit false

namespace VectorDb.Db

open VectorDb.Lib VectorDb.Storage VectorDb.Index Throwing

section Store
variable {s t : VectorStore}

/-- A store without tombstones is its own compaction. -/
theorem compacted_self (hs : s.Consistent) (hzero : s.tombstoneCount = 0) :
    Compacted s s s.slotCount := by
  have hall : ∀ l < s.slotCount, s.isLive l = true := by
    have hcount : s.live.count true = s.live.length := by
      have hle := hs.liveCount_le
      rw [VectorStore.tombstoneCount] at hzero
      rw [← hs.liveCount, hs.live]
      omega
    intro l hl
    rw [← hs.live] at hl
    rw [VectorStore.isLive, List.getD_eq_getElem _ _ hl]
    exact (List.count_eq_length.mp hcount _ (List.getElem_mem hl)).symm
  have hslots : liveSlots s s.slotCount = List.range s.slotCount :=
    List.filter_eq_self.mpr fun l hl => hall l (List.mem_range.mp hl)
  refine ⟨hs, rfl, rfl, ?_, ?_, ?_, ?_⟩
  all_goals
    rw [hslots]
    refine List.ext_getElem (by simp [hs.norms, hs.live, hs.ids, VectorStore.slotCount,
      VectorArray.size]) fun i hi _ => ?_
    simp only [List.getElem_map, List.getElem_range]
  · exact (List.getD_eq_getElem _ _ hi).symm
  · exact (List.getD_eq_getElem _ _ hi).symm
  · have hlive := hall i (hs.live ▸ hi)
    rw [VectorStore.isLive, List.getD_eq_getElem _ _ hi] at hlive
    exact hlive
  · exact (List.getD_eq_getElem _ _ hi).symm

/-- Every surviving id is where its slot has moved. -/
theorem Compacted.allIds (ht : Compacted s t s.slotCount) :
    ((List.range t.slotCount).filter t.isLive).map t.vectorId =
      ((List.range s.slotCount).filter s.isLive).map s.vectorId := by
  have hlive : (List.range t.slotCount).filter t.isLive = List.range t.slotCount := by
    refine List.filter_eq_self.mpr fun k hk => ?_
    rw [List.mem_range, ht.slotCount] at hk
    exact (ht.slot hk).2.2.2
  rw [hlive]
  refine List.ext_getElem (by simp [ht.slotCount, liveSlots]) fun k hk _ => ?_
  simp only [List.length_map, List.length_range, ht.slotCount] at hk
  simp only [List.getElem_map, List.getElem_range]
  exact (ht.slot hk).1

end Store

section Search
variable {L : Type} [LinearOrder L] (p : Platform L) {s t : VectorStore}

/-- A candidate of the compacted store, back in the slot it comes from. -/
def origin (s : VectorStore) (c : Candidate L) : Candidate L :=
  ⟨(liveSlots s s.slotCount).getD c.localId 0, c.key⟩

theorem Compacted.candidates (ht : Compacted s t s.slotCount) (metric : Metric)
    (query : FloatVector) :
    (BruteForceIndex.candidates (accessor p metric t) (queryOf p metric t query) 0
        t.slotCount).map (origin s) =
      BruteForceIndex.candidates (accessor p metric s) (queryOf p metric s query) 0 s.slotCount := by
  have hlive : (List.range' 0 (t.slotCount - 0)).filter (accessor p metric t).live =
      List.range t.slotCount := by
    rw [Nat.sub_zero, ← List.range_eq_range']
    refine List.filter_eq_self.mpr fun k hk => ?_
    rw [List.mem_range, ht.slotCount] at hk
    exact (ht.slot hk).2.2.2
  have hslots : (List.range' 0 (s.slotCount - 0)).filter (accessor p metric s).live =
      liveSlots s s.slotCount := by
    rw [Nat.sub_zero, ← List.range_eq_range']
    rfl
  rw [BruteForceIndex.candidates, BruteForceIndex.candidates, hlive, hslots, List.map_map]
  refine List.ext_getElem (by simp [ht.slotCount]) fun k hk _ => ?_
  simp only [List.length_map, List.length_range, ht.slotCount] at hk
  simp only [List.getElem_map, List.getElem_range, Function.comp_apply, origin,
    List.getD_eq_getElem _ _ hk]
  show Candidate.mk _ (p.withNorms metric query _ (t.vector k) (t.norm k)) =
    Candidate.mk _ (p.withNorms metric query _ (s.vector _) (s.norm _))
  rw [(ht.slot hk).2.1, (ht.slot hk).2.2.1]

/-- Candidates are ordered as they are in the slots they come from. -/
theorem candidateBetter_origin {a b : Candidate L}
    (ha : a.localId < (liveSlots s s.slotCount).length)
    (hb : b.localId < (liveSlots s s.slotCount).length) :
    candidateBetter (origin s a) (origin s b) = candidateBetter a b := by
  have hmono : (liveSlots s s.slotCount).Pairwise (· < ·) :=
    List.Pairwise.filter _ List.pairwise_lt_range
  have hslot : (origin s a).localId < (origin s b).localId ↔ a.localId < b.localId := by
    simp only [origin, List.getD_eq_getElem _ _ ha, List.getD_eq_getElem _ _ hb]
    rcases Nat.lt_trichotomy a.localId b.localId with hlt | heq | hgt
    · exact iff_of_true (List.pairwise_iff_getElem.mp hmono _ _ ha hb hlt) hlt
    · simp [heq]
    · have h := List.pairwise_iff_getElem.mp hmono _ _ hb ha hgt
      exact iff_of_false (Nat.lt_asymm h) (Nat.lt_asymm hgt)
  unfold candidateBetter
  rw [show (origin s a).key = a.key from rfl, show (origin s b).key = b.key from rfl]
  simp only [hslot]

/-- An exact scan of the compacted store finds the same vectors in the same order. -/
theorem Compacted.search (ht : Compacted s t s.slotCount) (metric : Metric) {query : FloatVector}
    (hquery : query.length = s.dimension) {k : Nat} (hk : 0 < k) (hmax : k ≤ kMaxCandidates) :
    ∃ found, BruteForceIndex.search p.std (accessor p metric t) (queryOf p metric t query) k =
        .ok found ∧
      BruteForceIndex.search p.std (accessor p metric s) (queryOf p metric s query) k =
        .ok (found.map (origin s)) ∧ ∀ c ∈ found, c.localId < t.slotCount := by
  have hmem : ∀ c ∈ BruteForceIndex.candidates (accessor p metric t) (queryOf p metric t query) 0
      t.slotCount, c.localId < t.slotCount := by
    intro c hc
    obtain ⟨l, hl, rfl⟩ := List.mem_map.mp hc
    have h := (List.mem_range'_1.mp (List.mem_filter.mp hl).1).2
    rwa [Nat.sub_zero, Nat.zero_add] at h
  have ht' := BruteForceIndex.search_eq p.std (accessor p metric t) (queryOf p metric t query) hk hmax
    (show query.length = t.dimension by rw [hquery, ht.dimension])
  have hs' := BruteForceIndex.search_eq p.std (accessor p metric s) (queryOf p metric s query) hk hmax
    hquery
  refine ⟨_, ht', ?_, fun c hc => ?_⟩
  · rw [hs', best, best, List.map_take]
    refine congrArg (fun l => Except.ok (List.take k l)) ?_
    show (BruteForceIndex.candidates _ _ 0 s.slotCount).insertionSort _ = _
    rw [← ht.candidates p metric query]
    refine (List.map_insertionSort _ _ _ _ fun a ha b hb => ?_).symm
    have ha := hmem a ha
    have hb := hmem b hb
    rw [ht.slotCount] at ha hb
    rw [NotAfter, NotAfter, candidateBetter_origin hb ha]
  · exact hmem c ((List.mem_insertionSort _).mp (List.mem_of_mem_take hc))

/-- What is asked of the store by distance alone. -/
theorem Compacted.searched (ht : Compacted s t s.slotCount) {c : DatabaseConfig}
    (hdim : s.dimension = c.dimension) (metadata : VectorId → Metadata) (query : FloatVector)
    (options : QueryOptions) :
    searched p c t metadata (BruteForceIndex.search p.std (accessor p c.metric t)
        (queryOf p c.metric t query) options.k) query options =
      searched p c s metadata (BruteForceIndex.search p.std (accessor p c.metric s)
        (queryOf p c.metric s query) options.k) query options := by
  unfold Db.searched
  by_cases hk : options.k = 0
  · simp only [hk, if_true]
  simp only [hk, if_false]
  cases hv : validateVector query c.dimension with
  | error e => rfl
  | ok u =>
    have hquery : query.length = s.dimension := hdim ▸ validateVector_length hv
    by_cases hmax : options.k ≤ kMaxCandidates
    · obtain ⟨found, hft, hfs, hlt⟩ := ht.search p c.metric hquery (Nat.pos_of_ne_zero hk) hmax
      rw [hft, hfs]
      show Except.ok (collected p c.metric t options metadata found []) =
        Except.ok (collected p c.metric s options metadata (found.map (origin s)) [])
      rw [collected_eq, collected_eq, List.map_map]
      refine congrArg (fun l => Except.ok ([] ++ (List.filter _ l).take _)) ?_
      refine List.map_congr_left fun a ha => ?_
      have hlen := ht.slotCount ▸ hlt a ha
      have hid := (ht.slot hlen).1
      simp only [resultOf, Function.comp_apply, origin, List.getD_eq_getElem _ _ hlen, hid]
    · rw [BruteForceIndex.search_of_lt p.std _ _ (Nat.lt_of_not_le hmax)
          (show query.length = t.dimension by rw [hquery, ht.dimension]),
        BruteForceIndex.search_of_lt p.std _ _ (Nat.lt_of_not_le hmax) hquery]
      rfl

end Search

section Flush
variable (env : Environment) (h : Handle)

/-- Apart from the flag, a flush leaves the memory alone. -/
theorem flush_db : ∃ dirty, (exec (flush env) h).2.db = { h.db with dirty := dirty } := by
  rw [exec_flush]
  split
  · rw [writeAll, exec_bind, exec_onDirectory]
    rcases exec (flushFiles env h.db) h.toDirectory with ⟨r, d⟩
    cases r with
    | error e => exact ⟨_, rfl⟩
    | ok u =>
      simp only [exec_bind, exec_onDirectory, exec_onMetadata]
      rcases exec (MetadataStore.setConfig env.sql kKeyNextId (toString h.db.nextAutoId.val))
        d.metadata with ⟨r, s⟩
      cases r <;> exact ⟨_, rfl⟩
  · exact ⟨_, rfl⟩

theorem setConfig_rows (faults : Faults) (key value : String) (s : MetadataStore) (id : VectorId) :
    (exec (MetadataStore.setConfig faults key value) s).2.connection.view.rows id =
      s.connection.view.rows id := by
  simp only [MetadataStore.setConfig, MetadataStore.sql, exec_on, exec_runStatement]
  cases s.connection.failure faults (some .setConfigValue) with
  | some detail => rfl
  | none => simp

theorem flush_metadataOf (id : VectorId) :
    (exec (flush env) h).2.metadataOf id = h.metadataOf id := by
  rcases (flush_flushedTo env h).metadata with hsame | hset
  · rw [Handle.metadataOf, hsame, Handle.metadataOf]
  · rw [Handle.metadataOf, hset, setConfig_rows, Handle.metadataOf]

theorem setConfig_stuck (faults : Faults) (key value : String) (s : MetadataStore) :
    (exec (MetadataStore.setConfig faults key value) s).2.connection.stuck .selectByVector =
      s.connection.stuck .selectByVector := by
  simp only [MetadataStore.setConfig, MetadataStore.sql, exec_on, exec_runStatement]
  cases s.connection.failure faults (some .setConfigValue) with
  | some detail =>
    simp only [Connection.failed]
    split
    · exact Function.update_of_ne (by simp) _ _
    · rfl
  | none =>
    simp only [Connection.write, Connection.tick]
    cases s.connection.pending <;> rfl

/-- A flush leaves the shared `SELECT` as it is. -/
theorem flush_stuck_select :
    (exec (flush env) h).2.metadata.connection.stuck .selectByVector =
      h.metadata.connection.stuck .selectByVector := by
  rcases (flush_flushedTo env h).metadata with hsame | hset
  · rw [hsame]
  · rw [hset, setConfig_stuck]

/-- What the files leave of a flush to the one statement that it makes. -/
theorem exec_flush_metadata (hdirty : h.db.dirty = true) :
    (∃ e, (exec (flush env) h).1 = .error e ∧ ¬ env.FilesDone) ∨
      (exec (flush env) h).1 = (exec (MetadataStore.setConfig env.sql kKeyNextId
        (toString h.db.nextAutoId.val)) h.metadata).1 := by
  have hfiles := flushFiles_spec env h.db (f := h.files) (R := fun m => m = h.metadata)
    h.toDirectory ⟨.refl _, rfl⟩
  rw [exec_flush, if_pos hdirty, writeAll, exec_bind, exec_onDirectory]
  rcases hexec : exec (flushFiles env h.db) h.toDirectory with ⟨r, d⟩
  rw [hexec] at hfiles
  cases r with
  | error e => exact .inl ⟨e, rfl, hfiles.2⟩
  | ok u =>
    right
    simp only [exec_bind, exec_onDirectory, exec_onMetadata, hfiles.2]
    rcases exec (MetadataStore.setConfig env.sql kKeyNextId (toString h.db.nextAutoId.val))
      h.metadata with ⟨r, s⟩
    cases r <;> rfl

variable {env h}

/-- A flush returns where no file fails and SQLite takes its one statement, whatever
earlier calls have left open. -/
theorem flush_ok (hfiles : env.FilesDone)
    (ha : env.sql.Answers (h.metadata.connection.stuck .setConfigValue)) :
    (exec (flush env) h).1 = .ok () := by
  by_cases hdirty : h.db.dirty = true
  · rcases exec_flush_metadata env h hdirty with ⟨e, -, hno⟩ | hset
    · exact absurd hfiles hno
    · rw [hset]
      simp [MetadataStore.setConfig, MetadataStore.sql, exec_on, exec_runStatement, ha.failure]
  · rw [exec_flush, if_neg hdirty]

theorem flush_quiet_ok (hq : env.Quiet) (h : Handle) : (exec (flush env) h).1 = .ok () :=
  flush_ok hq.2 (hq.1.answers _)

/-- Where that statement is stuck, a flush of anything fails. -/
theorem flush_stuck (hm : env.sql.OnlyMisuse) (hdirty : h.db.dirty = true)
    (hstuck : h.metadata.connection.stuck .setConfigValue = true) :
    ∃ e, (exec (flush env) h).1 = .error e := by
  obtain ⟨detail, hf⟩ := hm.failure_stuck h.metadata.connection hstuck
  rcases exec_flush_metadata env h hdirty with ⟨e, he, -⟩ | hset
  · exact ⟨e, he⟩
  · rw [hset]
    exact ⟨.metadata detail, by
      simp [MetadataStore.setConfig, MetadataStore.sql, exec_on, exec_runStatement, hf]⟩

variable (env h)

theorem exec_finishRebuild {α : Type} (result : α) :
    exec (finishRebuild env result) h =
      match exec (flush env) { h with db := { h.db with dirty := true } } with
      | (.ok _, g) => (.ok result, g)
      | (.error e, g) => (.error e, g) := by
  simp only [finishRebuild, exec_bind, exec_update]
  rcases exec (flush env) { h with db := { h.db with dirty := true } } with ⟨r, g⟩
  cases r <;> rfl

end Flush

section Compact
variable {L : Type} [LinearOrder L] (p : Platform L) {h g : Handle}

/-- `g` is a handle of a compacted database that answers as `h`. -/
structure CompactedFrom (h g : Handle) : Prop where
  tombstones : g.db.store.tombstoneCount = 0
  contains : ∀ id, g.db.store.contains id = h.db.store.contains id
  getVector : ∀ env : Environment,
    env.sql.Answers (h.metadata.connection.stuck .selectByVector) →
      ∀ id, (exec (getVector env id) g).1 = (exec (getVector env id) h).1
  allIds : g.db.allIds = h.db.allIds
  nextAutoId : g.db.nextAutoId = h.db.nextAutoId
  exactSearch : ∀ env : Environment,
    env.sql.Answers (h.metadata.connection.stuck .selectByVector) →
      ∀ (query : FloatVector) (options : QueryOptions),
        options.filter.isEmpty = true → h.db.SearchesExactly options →
          (exec (search p env query options) g).1 = (exec (search p env query options) h).1
  stuck : g.metadata.connection.stuck .selectByVector =
    h.metadata.connection.stuck .selectByVector
  slots : Compacted h.db.store g.db.store h.db.store.slotCount
  nodes : ∀ w, g.db.index = .hnsw w → w.nodeCount = g.db.store.slotCount

theorem searchCandidates_exactly {db : Database} {options : QueryOptions}
    (hexact : db.SearchesExactly options) (query : FloatVector) :
    searchCandidates p db query options = BruteForceIndex.search p.std
      (accessor p db.config.metric db.store) (queryOf p db.config.metric db.store query)
      (if options.filter.isEmpty then options.k else db.store.slotCount) := by
  unfold searchCandidates
  rw [if_pos]
  rcases hexact with he | ht
  · simp [he]
  · simp [ht]

/-- What the store, the flag, the counter and the rows tell. -/
theorem compactedFrom (hh : HandleSound False h) (hg : HandleSound False g)
    (hconfig : g.db.config = h.db.config) (hnext : g.db.nextAutoId = h.db.nextAutoId)
    (hflag : g.db.hasMetadata = h.db.hasMetadata) (hrows : ∀ id, g.metadataOf id = h.metadataOf id)
    (hstuck : g.metadata.connection.stuck .selectByVector =
      h.metadata.connection.stuck .selectByVector)
    (hslots : Compacted h.db.store g.db.store h.db.store.slotCount) : CompactedFrom p h g := by
  have hs := hh.database.store.consistent
  have hseen : g.seenMetadata = h.seenMetadata := by
    funext id
    rw [Handle.seenMetadata, Handle.seenMetadata, hflag, hrows]
  refine ⟨?_, fun id => ?_, fun env ha id => ?_, ?_, hnext, fun env ha query options hf hexact => ?_,
    hstuck, hslots, fun w hw => ?_⟩
  · rw [VectorStore.tombstoneCount, hslots.liveCount, Nat.sub_self]
  · rw [VectorStore.contains_eq_get?, VectorStore.contains_eq_get?, hslots.get? hs]
  · rw [getVector_get?_answers (hstuck ▸ ha), getVector_get?_answers ha, hslots.get? hs, hrows]
  · rw [Database.allIds, hslots.allIds, Database.allIds]
  · have hexact' : g.db.SearchesExactly options := by
      rw [Database.SearchesExactly, hconfig]
      exact hexact
    rw [search_answers p (hstuck ▸ ha), search_answers p ha, searchCandidates_exactly p hexact,
      searchCandidates_exactly p hexact', hseen, hconfig, if_pos hf, if_pos hf]
    exact hslots.searched p hh.database.store.dimension h.seenMetadata query options
  · have hfits := hg.database.index
    rw [hw] at hfits
    exact hfits.2.nodeCount

/-- What `compact` hands to its flush where there is something to reclaim. -/
structure Handle.CompactsTo (h c : Handle) : Prop where
  directory : c.toDirectory = h.toDirectory
  store : Compacted h.db.store c.db.store h.db.store.slotCount
  config : c.db.config = h.db.config
  nextAutoId : c.db.nextAutoId = h.db.nextAutoId
  hasMetadata : c.db.hasMetadata = h.db.hasMetadata
  dirty : c.db.dirty = true

theorem exec_compact_flush (env : Environment) (hh : HandleSound False h)
    (hsome : h.db.store.tombstoneCount ≠ 0) :
    ∃ c, h.CompactsTo c ∧ exec (compact p env) h =
      match exec (flush env) c with
      | (.ok _, g) => (.ok h.db.store.tombstoneCount, g)
      | (.error e, g) => (.error e, g) := by
  obtain ⟨t, built, ht, -, hexec⟩ := exec_compact_some p env hh.database.valid
    hh.database.store.consistent hh.database.store.dimension hh.database.store.normalizes hsome
  rw [hexec, exec_finishRebuild]
  refine ⟨{ h with db := { h.db with
    store := t, index := built.1, addedFor := built.2, dirty := true } }, ?_, rfl⟩
  exact ⟨rfl, ht, rfl, rfl, rfl, rfl⟩

/-- Where SQLite refuses misuse only, compaction returns if and only if there is nothing to
reclaim, or the statement that its flush makes is not stuck. -/
theorem compact_returns_iff (hh : HandleSound False h) {env : Environment}
    (hm : env.OnlyMisuse) :
    (exec (compact p env) h).1 = .ok h.db.store.tombstoneCount ↔
      h.db.store.tombstoneCount = 0 ∨ h.metadata.connection.stuck .setConfigValue = false := by
  by_cases hzero : h.db.store.tombstoneCount = 0
  · rw [exec_compact_none p env hzero, hzero]
    exact iff_of_true rfl (.inl rfl)
  obtain ⟨c, hc, hexec⟩ := exec_compact_flush p env hh hzero
  rw [hexec]
  have hconnection : c.metadata.connection = h.metadata.connection := by rw [hc.directory]
  cases hset : h.metadata.connection.stuck .setConfigValue with
  | false =>
    have hok := flush_ok (h := c) hm.2 (by rw [hconnection, hset]; exact hm.1.answers)
    rcases hflush : exec (flush env) c with ⟨r, g⟩
    rw [hflush] at hok
    cases hok
    exact iff_of_true rfl (.inr rfl)
  | true =>
    obtain ⟨e, he⟩ := flush_stuck hm.1 hc.dirty (by rw [hconnection, hset])
    rcases hflush : exec (flush env) c with ⟨r, g⟩
    rw [hflush] at he
    cases he
    exact iff_of_false (fun hok => by cases hok) fun hor => hor.elim hzero (fun hno => by cases hno)

/-- Compaction reclaims the tombstones and changes no answer, also where its flush fails. It
returns if there is nothing to reclaim, or the statement that its flush makes is not stuck. -/
theorem compact_compactedFrom_iff (hr : (runs p fun _ _ _ => True).Reachable (.opened h))
    (env : Environment) :
    (∀ n, (exec (compact p env) h).1 = .ok n → n = h.db.store.tombstoneCount) ∧
      (env.OnlyMisuse → ((exec (compact p env) h).1 = .ok h.db.store.tombstoneCount ↔
        h.db.store.tombstoneCount = 0 ∨ h.metadata.connection.stuck .setConfigValue = false)) ∧
      CompactedFrom p h (exec (compact p env) h).2 := by
  have hh : HandleSound False h := reachable_sound p hr
  refine ⟨?_, fun hm => compact_returns_iff p hh hm, ?_⟩
  · by_cases hzero : h.db.store.tombstoneCount = 0
    · rw [exec_compact_none p env hzero, hzero]
      exact fun n hn => (Except.ok.inj hn).symm
    · obtain ⟨c, -, hexec⟩ := exec_compact_flush p env hh hzero
      rw [hexec]
      rcases exec (flush env) c with ⟨r, g⟩
      cases r with
      | ok u => exact fun n hn => (Except.ok.inj hn).symm
      | error e => exact fun n hn => by cases hn
  · have hsound := compact_sound p env hh
    by_cases hzero : h.db.store.tombstoneCount = 0
    · rw [exec_compact_none p env hzero]
      exact compactedFrom p hh hh rfl rfl rfl (fun _ => rfl) rfl
        (compacted_self hh.database.store.consistent hzero)
    · obtain ⟨c, hc, hexec⟩ := exec_compact_flush p env hh hzero
      obtain ⟨dirty, hdb⟩ := flush_db env c
      have hrows := flush_metadataOf env c
      have hselect := flush_stuck_select env c
      rw [hexec] at hsound ⊢
      rcases hflush : exec (flush env) c with ⟨r, g⟩
      rw [hflush] at hsound hdb hrows hselect
      have hfrom : HandleSound False g → CompactedFrom p h g := fun hg => by
        dsimp only at hdb
        refine compactedFrom p hh hg (by rw [hdb]; exact hc.config) (by rw [hdb]; exact hc.nextAutoId)
          (by rw [hdb]; exact hc.hasMetadata) (fun id => (hrows id).trans ?_) (hselect.trans ?_)
          (by rw [hdb]; exact hc.store)
        · rw [Handle.metadataOf, hc.directory, Handle.metadataOf]
        · rw [hc.directory]
      cases r <;> exact hfrom hsound

end Compact

/-- Three vectors, of which the first is removed: the others move down a slot. -/
def removedFirst : List (Event × Environment) :=
  [(.create unitConfig unitConfig_sized, faultless),
    (.call (.insert 0 [Component.one] ∅), faultless),
    (.call (.insert 1 [Component.zero] ∅), faultless),
    (.call (.insert 2 [Component.one] ∅), faultless), (.call (.remove 0), faultless)]

theorem compact_compactedFrom_renumbers : ∃ h : Handle,
    h.db.store.find 2 = some 2 ∧
      (exec (compact unitPlatform misuseRefused) h).1 = .ok 1 ∧
      CompactedFrom unitPlatform h (exec (compact unitPlatform misuseRefused) h).2 ∧
      (exec (compact unitPlatform misuseRefused) h).2.db.store.find 2 = some 1 := by
  obtain ⟨h, hr, htest⟩ := exists_reachable unitPlatform
    (fun _ _ _ => True) (fun _ _ _ => trivial)
    (show (State.afterAll unitPlatform removedFirst .absent).handle?.map (fun h =>
      decide (h.db.store.find 2 = some 2 ∧ h.db.store.tombstoneCount = 1 ∧
        h.metadata.connection.stuck .setConfigValue = false ∧
        (exec (compact unitPlatform misuseRefused) h).2.db.store.find 2 = some 1)) = some true by
      decide +kernel)
  obtain ⟨hfind, htomb, hfree, hmoved⟩ := of_decide_eq_true htest
  obtain ⟨-, hreturns, hfrom⟩ := compact_compactedFrom_iff unitPlatform hr misuseRefused
  have hok := (hreturns onlyMisuse_misuseRefused).mpr (.inr hfree)
  rw [htomb] at hok
  exact ⟨h, hfind, hok, hfrom, hmoved⟩

/-- A flush whose one statement fails leaves it stuck, and the next compaction throws. -/
theorem stuck_compact_throws :
    ¬ ∀ (env : Environment) (h : Handle), env.OnlyMisuse →
      (runs unitPlatform fun _ _ _ => True).Reachable (.opened h) →
      (exec (compact unitPlatform env) h).1 = .ok h.db.store.tombstoneCount := by
  intro hall
  obtain ⟨h, hr, htest⟩ := exists_reachable unitPlatform
    (fun _ _ _ => True) (fun _ _ _ => trivial)
    (show (State.afterAll unitPlatform (removedFirst ++ [(.call .flush, stepsFail)])
        .absent).handle?.map (fun h => decide (h.db.store.tombstoneCount ≠ 0 ∧
          h.metadata.connection.stuck .setConfigValue = true)) = some true by decide +kernel)
  obtain ⟨htomb, hstuck⟩ := of_decide_eq_true htest
  have hreturns := (compact_returns_iff unitPlatform (reachable_sound unitPlatform hr)
    onlyMisuse_misuseRefused).mp (hall misuseRefused h onlyMisuse_misuseRefused hr)
  rw [hstuck] at hreturns
  exact hreturns.elim htomb (by simp)

end VectorDb.Db
