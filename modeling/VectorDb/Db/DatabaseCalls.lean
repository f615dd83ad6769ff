import VectorDb.Db.Database
import VectorDb.Index.HnswReload
import VectorDb.Storage.VectorRoundTrip

/-!
What one call of a database does: the check it is rejected by, or what it makes of
the store, the index and the metadata, step by step.
-/
set_option autoImplicit false

namespace VectorDb.Db

open VectorDb.Lib VectorDb.Storage VectorDb.Index Throwing

section Exec
variable {α : Type}

@[simp] theorem exec_onMetadata (x : MetadataStore.Call α) (d : Directory) :
    exec (onMetadata x) d = ((exec x d.metadata).1, { d with metadata := (exec x d.metadata).2 }) :=
  rfl

@[simp] theorem exec_onDirectory (x : DirectoryCall α) (h : Handle) :
    exec (onDirectory x) h =
      ((exec x h.toDirectory).1, { h with toDirectory := (exec x h.toDirectory).2 }) := rfl

@[simp] theorem exec_onStore (x : VectorStore.Call α) (h : Handle) :
    exec (onStore x) h =
      ((exec x h.db.store).1, { h with db := { h.db with store := (exec x h.db.store).2 } }) := rfl

@[simp] theorem exec_update (f : Database → Database) (h : Handle) :
    exec (update f) h = (.ok (), { h with db := f h.db }) := rfl

end Exec

/-- The graph has a node for each slot, and its arrays have sizes `add` gives them. -/
structure NodesFor (s : VectorStore) (g : HnswIndex) : Prop where
  nodeCount : g.nodeCount = s.slotCount
  m_le : g.config.m ≤ 512
  upper_length : g.upperLinks.length ≤ g.nodeCount * 130302

/-- The index is of the configured kind and has a node for each slot. -/
def IndexFits (type : IndexType) (s : VectorStore) : VectorIndex → Prop
  | .bruteForce => type = .bruteForce
  | .hnsw g => type = .hnsw ∧ NodesFor s g

/-- The index counts as many live nodes as the store, and its nodes were added for
the ids in the slots. -/
def InStep (s : VectorStore) (addedFor : List VectorId) : VectorIndex → Prop
  | .bruteForce => True
  | .hnsw g => g.liveCount = s.liveCount ∧ addedFor = s.localToId

section View
variable {K : Type} [BEq K] [LT K] [DecidableLT K] (p : Platform K)

/-- What `index_->add` makes of an index once the store `s` has the vector. -/
inductive Indexed (metric : Metric) (s : VectorStore) (ids : List VectorId) (id : VectorId) :
    VectorIndex → VectorIndex → List VectorId → Prop where
  | bruteForce : Indexed metric s ids id .bruteForce .bruteForce ids
  | hnsw {g r : HnswIndex} :
      HnswIndex.add p.std (accessor p metric s) p.levelOf g g.nodeCount = .ok r →
      Indexed metric s ids id (.hnsw g) (.hnsw r) (ids ++ [id])

/-- The database with one more vector in its store and its index. -/
structure Grown (d e : Database) (id : VectorId) (v : FloatVector) : Prop where
  store : VectorStore.Appended d.store e.store id
    (VectorStore.storedForm p.toArithmetic d.store.normalizes v)
    (VectorStore.storedNorm p.toArithmetic d.store.normalizes v) true
  index : Indexed p d.config.metric e.store d.addedFor id d.index e.index e.addedFor
  rest : e = { d with store := e.store, index := e.index, addedFor := e.addedFor }

variable (env : Environment) {h : Handle} {id : VectorId} {v : FloatVector} {m : Metadata}

/-- What is left of `insert` once the store and the index have the vector. -/
def finishInsert (id : VectorId) (metadata : Metadata) : Call Unit := do
  if !metadata.isEmpty then
    onDirectory (onMetadata (MetadataStore.set env.sql id metadata))
    update fun db => { db with hasMetadata := true }
  update fun db => { db with nextAutoId := advance db.nextAutoId id, dirty := true }

/-- What is left of `upsert` once the store has the vector. -/
def finishUpsert (id : VectorId) (metadata : Metadata) : Call Unit := do
  onDirectory (onMetadata (MetadataStore.set env.sql id metadata))
  update fun db =>
    { db with hasMetadata := db.hasMetadata || !metadata.isEmpty, dirty := true }

/-- What is left of `remove` once the store and the index have let the vector go. -/
def finishRemove (id : VectorId) : Call Bool := do
  let _ ← onDirectory (onMetadata (MetadataStore.remove env.sql id))
  update fun db => { db with dirty := true }
  return true

theorem exec_insert_rejected {e : Error} (hc : h.db.store.insertCheck id v = .error e) :
    exec (insert p env id v m) h = (.error e, h) := by
  simp [insert, exec_bind, VectorStore.exec_insert_error p.toArithmetic hc]

theorem exec_insert_accepted (hs : h.db.store.Consistent)
    (hfits : IndexFits h.db.config.indexType h.db.store h.db.index)
    (hc : h.db.store.insertCheck id v = .ok ()) :
    ∃ db, Grown p h.db db id v ∧
      exec (insert p env id v m) h = exec (finishInsert env id m) { h with db := db } := by
  obtain ⟨s, hexec, hs'⟩ := VectorStore.exec_insert_ok p.toArithmetic hc
  have hid : s.vectorId h.db.store.slotCount = id := by
    rw [hs'.vectorId hs, if_pos rfl]
  cases hi : h.db.index with
  | bruteForce =>
    refine ⟨{ h.db with store := s }, ⟨hs', ?_, rfl⟩, ?_⟩
    · rw [hi]
      exact .bruteForce
    · simp [insert, indexAdd, exec_bind, hexec, hi, finishInsert]
  | hnsw g =>
    have hg : NodesFor h.db.store g := by
      rw [hi] at hfits
      exact hfits.2
    obtain ⟨r, hr, -⟩ := HnswIndex.add_appended p.std (accessor p h.db.config.metric s) p.levelOf g
      (by rw [hg.nodeCount]; show _ < s.slotCount; rw [hs'.slotCount]; exact Nat.lt_succ_self _)
    refine ⟨{ h.db with store := s, index := .hnsw r, addedFor := h.db.addedFor ++ [id] },
      ⟨hs', ?_, rfl⟩, ?_⟩
    · rw [hi]
      exact .hnsw hr
    · rw [hg.nodeCount] at hr
      simp [insert, indexAdd, exec_bind, hexec, hi, hr, hid, finishInsert]

/-- The automatic `insert` is the other one with the id the counter gives it. -/
theorem exec_insertAuto :
    exec (insertAuto p env v m) h =
      match exec (insert p env h.db.nextAutoId v m) h with
      | (.ok _, g) => (.ok h.db.nextAutoId, g)
      | (.error e, g) => (.error e, g) := by
  simp only [insertAuto, exec_bind, exec_get]
  rcases exec (insert p env h.db.nextAutoId v m) h with ⟨r, g⟩
  cases r <;> rfl

theorem exec_upsert_new (hc : h.db.store.contains id = false) :
    exec (upsert p env id v m) h = exec (insert p env id v m) h := by
  simp [upsert, exec_bind, hc]

theorem exec_upsert_rejected {e : Error} (hc : h.db.store.contains id = true)
    (hv : validateVector v h.db.store.dimension = .error e) :
    exec (upsert p env id v m) h = (.error e, h) := by
  simp [upsert, exec_bind, hc, VectorStore.exec_upsert_error p.toArithmetic hc hv]

theorem exec_upsert_accepted {slot : LocalId} (hs : h.db.store.Consistent)
    (hfind : h.db.store.find id = some slot)
    (hv : validateVector v h.db.store.dimension = .ok ()) :
    ∃ s, VectorStore.Assigned h.db.store s slot
        (VectorStore.storedForm p.toArithmetic h.db.store.normalizes v)
        (VectorStore.storedNorm p.toArithmetic h.db.store.normalizes v) ∧
      exec (upsert p env id v m) h =
        exec (finishUpsert env id m) { h with db := { h.db with store := s } } := by
  obtain ⟨s, hexec, hs'⟩ := VectorStore.exec_upsert_ok p.toArithmetic hfind
    ((hs.find_iff id slot).mp hfind).1 hv
  refine ⟨s, hs', ?_⟩
  have hc : h.db.store.contains id = true := by simp [VectorStore.contains, hfind]
  simp [upsert, exec_bind, hc, hexec, finishUpsert]

theorem exec_remove_absent (hfind : h.db.store.find id = none) :
    exec (remove env id) h = (.ok false, h) := by
  simp [remove, exec_bind, hfind]

theorem exec_remove_present {slot : LocalId} (hfind : h.db.store.find id = some slot) :
    ∃ s, VectorStore.Removed h.db.store s id slot ∧
      exec (remove env id) h = exec (finishRemove env id)
        { h with db := { h.db with store := s, index := h.db.index.remove slot } } := by
  obtain ⟨s, hexec, hs'⟩ := VectorStore.exec_remove hfind
  refine ⟨s, hs', ?_⟩
  simp [remove, exec_bind, hfind, hexec, finishRemove]

theorem exec_setMetadata_absent (hc : h.db.store.contains id = false) :
    exec (setMetadata env id m) h = (.error (.notFound ("no vector with id " ++ toString id.val)), h) := by
  simp [setMetadata, exec_bind, hc]

/-- What is left of `set_metadata` once the vector was found. -/
def finishSetMetadata (id : VectorId) (metadata : Metadata) : Call Unit := do
  onDirectory (onMetadata (MetadataStore.set env.sql id metadata))
  update fun db => { db with hasMetadata := db.hasMetadata || !metadata.isEmpty }

theorem exec_setMetadata_present (hc : h.db.store.contains id = true) :
    exec (setMetadata env id m) h = exec (finishSetMetadata env id m) h := by
  simp [setMetadata, exec_bind, hc, finishSetMetadata]

/-- The file writes of `flush`. -/
def flushFiles (db : Database) : DirectoryCall Unit := do
  replaceFile env fun f => { f with vectors := some (writeVectorFile db.store), torn := true }
  match db.index with
  | .bruteForce => pure ()
  | .hnsw index =>
    replaceFile env fun f =>
      { f with index := some ⟨writeHnswFile index db.config.dimension, db.addedFor⟩, torn := false }

/-- What `flush` does where there is something to write. -/
def writeAll (db : Database) : Call Unit := do
  onDirectory (flushFiles env db)
  onDirectory (onMetadata (MetadataStore.setConfig env.sql kKeyNextId
    (toString db.nextAutoId.val)))
  update fun db => { db with dirty := false }

theorem exec_flush (h : Handle) :
    exec (flush env) h = if h.db.dirty then exec (writeAll env h.db) h else (.ok (), h) := by
  cases hd : h.db.dirty with
  | false => simp [flush, exec_bind, hd]
  | true =>
    simp only [flush, writeAll, flushFiles, exec_bind, exec_get, exec_onDirectory, hd, if_true]
    rcases exec (replaceFile env fun f =>
      { f with vectors := some (writeVectorFile h.db.store), torn := true }) h.toDirectory with ⟨r, d⟩
    cases r with
    | error e => rfl
    | ok u =>
      cases hi : h.db.index with
      | bruteForce => simp only [exec_bind, exec_onDirectory, exec_pure]
      | hnsw g => simp only [exec_bind, exec_onDirectory]

/-- The places of the index that a rebuild looks at, after the first `n` slots. -/
structure Replayed (metric : Metric) (config : HnswConfig) (s : VectorStore) (n : Nat)
    (g : HnswIndex) : Prop where
  nodeCount : g.nodeCount = n
  config : g.config = config
  liveCount : g.liveCount = (s.live.take n).count true
  upper_length : g.upperLinks.length ≤ n * 130302

theorem foldlM_range_succ {α ε : Type} (f : α → Nat → Except ε α) (a : α) (n : Nat) :
    (List.range (n + 1)).foldlM f a = (List.range n).foldlM f a >>= fun b => f b n := by
  rw [List.range_succ, List.foldlM_append]
  simp

theorem replay_prefix (metric : Metric) {config : HnswConfig} {s : VectorStore}
    (hs : s.Counted) (hm : config.m ≤ 512) (n : Nat) (hn : n ≤ s.slotCount) :
    ∃ g, (List.range n).foldlM (replaySlot p metric s) (HnswIndex.empty metric config) = .ok g ∧
      Replayed metric config s n g := by
  induction n with
  | zero => exact ⟨_, rfl, rfl, rfl, by simp [HnswIndex.empty], by simp [HnswIndex.empty]⟩
  | succ n ih =>
    obtain ⟨g, hg, hr⟩ := ih (by omega)
    obtain ⟨r, hadd, ha, -⟩ := HnswIndex.add_appended p.std (accessor p metric s) p.levelOf g
      (by rw [hr.nodeCount]; exact hn)
    rw [hr.nodeCount] at hadd
    have hupper : r.upperLinks.length ≤ (n + 1) * 130302 := by
      have hle := ha.upper_length_le (by rw [hr.config]; exact hm) (g.randomLevel_le p.levelOf)
      have := hr.upper_length
      omega
    have hlive : (s.live.take (n + 1)).count true =
        (s.live.take n).count true + if s.isLive n then 1 else 0 := by
      have hlt : n < s.live.length := by
        rw [hs.live]
        exact hn
      rw [take_succ_getD hlt false, List.count_append]
      cases h : s.isLive n <;> simp [VectorStore.isLive] at h <;> simp [h]
    refine ⟨if s.isLive n then r else r.remove n, ?_, ?_⟩
    · rw [foldlM_range_succ, hg]
      simp only [replaySlot, bind, Except.bind, hadd]
      rfl
    · cases h : s.isLive n with
      | true =>
        exact ⟨by rw [if_pos rfl, ha.nodeCount, hr.nodeCount], by simp [ha.config, hr.config],
          by simp [ha.liveCount, hr.liveCount, hlive, h], by simpa using hupper⟩
      | false =>
        have hremove : r.remove n = { r with liveCount := g.liveCount } := by
          have hcount := ha.nodeCount
          have hlc := ha.liveCount
          rw [HnswIndex.remove, if_neg (by rw [hcount, hr.nodeCount]; omega), if_pos (by omega), hlc]
          rfl
        rw [if_neg (by simp), hremove]
        exact ⟨ha.nodeCount.trans (by rw [hr.nodeCount]), ha.config.trans hr.config,
          by simp [hr.liveCount, hlive, h], hupper⟩

theorem validate_hnsw {c : DatabaseConfig} (hv : c.validate = .ok ())
    (htype : c.indexType = .hnsw) : c.hnsw.validate = .ok () := by
  unfold DatabaseConfig.validate at hv
  split at hv
  · cases hv
  · simpa [htype] using hv

/-- A rebuild of a valid configuration succeeds and leaves the index in step. -/
theorem builtIndex_ok {config : DatabaseConfig} {s : VectorStore}
    (hv : config.validate = .ok ()) (hs : s.Counted) :
    ∃ built, builtIndex p config s = .ok built ∧ IndexFits config.indexType s built.1 ∧
      InStep s built.2 built.1 := by
  cases ht : config.indexType with
  | bruteForce => exact ⟨(.bruteForce, []), by rw [builtIndex, ht], rfl, trivial⟩
  | hnsw =>
    have hhnsw := validate_hnsw hv ht
    have hm := ((HnswConfig.validate_eq_ok_iff _).mp hhnsw).m_le
    obtain ⟨g, hg, hr⟩ := replay_prefix p config.metric hs hm s.slotCount le_rfl
    have hreplay : replay p config.metric config.hnsw s = .ok g := by
      simp only [replay, HnswIndex.create, hhnsw, bind, Except.bind]
      exact hg
    refine ⟨(.hnsw g, s.localToId), ?_, ⟨rfl, hr.nodeCount, by rw [hr.config]; exact hm, ?_⟩, ?_, rfl⟩
    · simp only [builtIndex, ht, hreplay]
      rfl
    · rw [hr.nodeCount]
      exact hr.upper_length
    · rw [hr.liveCount, List.take_of_length_le hs.live.le, hs.liveCount]

end View

end VectorDb.Db
