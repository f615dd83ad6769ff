import VectorDb.Db.DatabaseEffects

/-!
What one call can do to a handle, however it ends: one case for each way through its
code.
-/
set_option autoImplicit false

namespace VectorDb.Db

open VectorDb.Lib VectorDb.Storage VectorDb.Index Throwing

/-- The call inserts `v` under `id`, if its checks accept them. -/
def Operation.Inserts (h : Handle) (id : VectorId) (v : FloatVector) (m : Metadata) :
    Operation → Prop
  | .insert i w n => i = id ∧ w = v ∧ n = m
  | .insertAuto w n => h.db.nextAutoId = id ∧ w = v ∧ n = m
  | .upsert i w n => h.db.store.contains i = false ∧ i = id ∧ w = v ∧ n = m
  | _ => False

/-- The handle once SQLite has counted some more of its calls, of which one may have
left a statement stuck. -/
def Handle.ticked (h : Handle) (n : Nat × (Prepared → Bool)) : Handle :=
  { h with metadata := { h.metadata with
    connection := { h.metadata.connection with clock := n.1, stuck := n.2 } } }

theorem Handle.ticked_refl (h : Handle) : ∃ n, h = h.ticked n :=
  ⟨(h.metadata.connection.clock, h.metadata.connection.stuck), rfl⟩

section Reads
variable {K : Type} [BEq K] [LT K] [DecidableLT K] (p : Platform K) (env : Environment)
variable {h : Handle}

/-- Code that only reads. -/
abbrev OnlyReads {α : Type} (x : Call α) : Prop :=
  ∀ h : Handle, Maintains (fun g => ∃ n, g = h.ticked n) x

theorem onlyReads_query {α : Type} (statement : Option Prepared) (read : Tables → α) :
    OnlyReads (onDirectory (onMetadata
      (MetadataStore.sql (queryStatement env.sql statement read)))) := by
  rintro h g ⟨n, rfl⟩
  simp only [MetadataStore.sql, exec_onDirectory, exec_onMetadata, exec_on, exec_queryStatement]
  cases Connection.failure _ env.sql _ with
  | some detail => exact ⟨(_, _), rfl⟩
  | none => exact ⟨(_, n.2), rfl⟩

theorem onlyReads_get (id : VectorId) :
    OnlyReads (onDirectory (onMetadata (MetadataStore.get env.sql id))) :=
  onlyReads_query env _ _

theorem onlyReads_stats : OnlyReads (stats env) :=
  fun h => Maintains.getBind fun g hg => Maintains.bind (onlyReads_query env _ _ h)
    (fun _ => Maintains.bind (onlyReads_query env _ _ h)
      fun _ => Maintains.bind (onlyReads_query env _ _ h) fun _ => Maintains.pure _) g hg

theorem onlyReads_getVector (id : VectorId) : OnlyReads (getVector env id) := by
  refine fun h => Maintains.getBind fun g hg => ?_
  cases g.db.store.find id with
  | none => exact hg
  | some slot =>
    exact Maintains.bind (onlyReads_get env id h) (fun _ => Maintains.pure _) g hg

theorem onlyReads_collectResults (db : Database) (options : QueryOptions)
    (candidates : List (Candidate K)) (results : List QueryResult) :
    OnlyReads (onDirectory (collectResults p env db options candidates results)) := by
  intro h
  induction candidates generalizing results with
  | nil => exact fun g hg => hg
  | cons candidate candidates ih =>
    have hsome : ∀ id : VectorId, Maintains (fun g => ∃ n, g = h.ticked n)
        (onDirectory (do
          let m ← onMetadata (MetadataStore.get env.sql id)
          if options.filter.matches m then
            collectResults p env db options candidates
              (results ++ [⟨id, p.scoreFromRankKey db.config.metric candidate.key, m⟩])
          else collectResults p env db options candidates results)) := by
      intro id g hg
      have hget := onlyReads_get env id h g hg
      rw [exec_onDirectory] at hget ⊢
      rw [exec_bind]
      rcases hexec : exec (onMetadata (MetadataStore.get env.sql id)) g.toDirectory with ⟨r, d⟩
      rw [hexec] at hget
      cases r with
      | error e => exact hget
      | ok m =>
        dsimp only
        rw [exec_ite]
        split
        · exact ih _ { g with toDirectory := d } hget
        · exact ih _ { g with toDirectory := d } hget
    intro g hg
    unfold collectResults
    rw [exec_onDirectory]
    simp only [exec_ite]
    split
    · exact hg
    · split
      · exact hsome _ g hg
      · split
        · exact ih _ g hg
        · exact ih _ g hg

theorem onlyReads_search (query : FloatVector) (options : QueryOptions) :
    OnlyReads (search p env query options) := by
  intro h
  have hrest : Maintains (fun g => ∃ n, g = h.ticked n) (do
      let g ← get
      fromExcept (validateVector query g.db.config.dimension)
      let candidates ← fromExcept (searchCandidates p g.db query options)
      onDirectory (collectResults p env g.db options candidates []) : Call (List QueryResult)) :=
    Maintains.getBind fun g hg => Maintains.bind (Maintains.fromExcept _)
      (fun _ => Maintains.bind (Maintains.fromExcept _) fun _ =>
        onlyReads_collectResults p env _ _ _ _ h) g hg
  exact Maintains.ite (Maintains.bind (Maintains.throw _) fun _ => hrest) hrest

end Reads

/-- `g` has the database of `h`, its flags and its counter apart. -/
structure SameMemory (h g : Handle) : Prop where
  config : g.db.config = h.db.config
  store : g.db.store = h.db.store
  index : g.db.index = h.db.index
  addedFor : g.db.addedFor = h.db.addedFor

/-- `g` is `h` with other metadata. -/
structure Wrote (h : Handle) (s : MetadataStore) (g : Handle) : Prop extends SameMemory h g where
  files : g.files = h.files
  metadata : g.metadata = s

/-- `g` is `h` after a flush, or after a part of one. -/
structure Flushed (env : Environment) (h g : Handle) : Prop extends SameMemory h g where
  files : h.files.BetweenFlushes h.db g.files
  complete : env.FilesDone → g.files.Same h.files ∨ g.files.Same (h.files.flushed h.db)
  metadata : g.metadata = h.metadata ∨ g.metadata =
    (exec (MetadataStore.setConfig env.sql kKeyNextId (toString h.db.nextAutoId.val)) h.metadata).2
  nextAutoId : g.db.nextAutoId = h.db.nextAutoId

section Leaves
variable (env : Environment) (h : Handle) (id : VectorId) (m : Metadata)

/-- What `finishInsert` does with the tables. -/
def insertedStore : MetadataStore :=
  if m.isEmpty then h.metadata else (exec (MetadataStore.set env.sql id m) h.metadata).2

theorem finishInsert_wrote :
    Wrote h (insertedStore env h id m) (exec (finishInsert env id m) h).2 := by
  unfold insertedStore
  cases hm : m.isEmpty with
  | true =>
    simp only [finishInsert, hm, Bool.not_true, Bool.false_eq_true, if_false, exec_update, if_true]
    exact ⟨⟨rfl, rfl, rfl, rfl⟩, rfl, rfl⟩
  | false =>
    simp only [finishInsert, hm, Bool.not_false, if_true, exec_bind, exec_onDirectory,
      exec_onMetadata, exec_update]
    rcases exec (MetadataStore.set env.sql id m) h.metadata with ⟨r, s⟩
    cases r <;> exact ⟨⟨rfl, rfl, rfl, rfl⟩, rfl, rfl⟩

theorem finishUpsert_wrote : Wrote h (exec (MetadataStore.set env.sql id m) h.metadata).2
    (exec (finishUpsert env id m) h).2 := by
  simp only [finishUpsert, exec_bind, exec_onDirectory, exec_onMetadata]
  rcases exec (MetadataStore.set env.sql id m) h.metadata with ⟨r, s⟩
  cases r <;> exact ⟨⟨rfl, rfl, rfl, rfl⟩, rfl, rfl⟩

theorem finishSetMetadata_wrote : Wrote h (exec (MetadataStore.set env.sql id m) h.metadata).2
    (exec (finishSetMetadata env id m) h).2 := by
  simp only [finishSetMetadata, exec_bind, exec_onDirectory, exec_onMetadata]
  rcases exec (MetadataStore.set env.sql id m) h.metadata with ⟨r, s⟩
  cases r <;> exact ⟨⟨rfl, rfl, rfl, rfl⟩, rfl, rfl⟩

theorem finishRemove_wrote : Wrote h (exec (MetadataStore.remove env.sql id) h.metadata).2
    (exec (finishRemove env id) h).2 := by
  simp only [finishRemove, exec_bind, exec_onDirectory, exec_onMetadata]
  rcases exec (MetadataStore.remove env.sql id) h.metadata with ⟨r, s⟩
  cases r <;> exact ⟨⟨rfl, rfl, rfl, rfl⟩, rfl, rfl⟩

theorem flush_flushedTo : Flushed env h (exec (flush env) h).2 := by
  rw [exec_flush]
  split
  · have hfiles := flushFiles_spec env h.db (f := h.files) (R := (· = h.metadata)) h.toDirectory
      ⟨.refl _, rfl⟩
    rw [writeAll, exec_bind, exec_onDirectory]
    rcases hexec : exec (flushFiles env h.db) h.toDirectory with ⟨r, d⟩
    rw [hexec] at hfiles
    cases r with
    | error e => exact ⟨⟨rfl, rfl, rfl, rfl⟩, hfiles.1.1, fun hq => absurd hq hfiles.2, .inl hfiles.1.2, rfl⟩
    | ok u =>
      simp only [exec_bind, exec_onDirectory, exec_onMetadata, hfiles.2]
      rcases hset : exec (MetadataStore.setConfig env.sql kKeyNextId (toString h.db.nextAutoId.val))
        h.metadata with ⟨r, s⟩
      cases r <;> exact ⟨⟨rfl, rfl, rfl, rfl⟩, .inr (.inr hfiles.1), fun _ => .inr hfiles.1,
        .inr (congrArg Prod.snd hset).symm, rfl⟩
  · exact ⟨⟨rfl, rfl, rfl, rfl⟩, .inl (.refl _), fun _ => .inl (.refl _), .inl rfl, rfl⟩

theorem exec_destroy_files :
    (exec (destroy env) h).2 = (exec (flush env) h).2 := by
  rw [destroy, exec_tryCatch]
  rcases exec (flush env) h with ⟨r, g⟩
  cases r <;> rfl

theorem finishRebuild_flushedTo {α : Type} (result : α) :
    Flushed env { h with db := { h.db with dirty := true } } (exec (finishRebuild env result) h).2 := by
  rw [finishRebuild, exec_bind, exec_update]
  dsimp only
  rw [exec_bind_pure]
  exact flush_flushedTo env _

end Leaves

section Outcome
variable {K : Type} [BEq K] [LT K] [DecidableLT K] (p : Platform K) (env : Environment)

/-- How a call leaves the handle `h`. -/
inductive Operation.Outcome (h : Handle) : Operation → Handle → Prop where
  | unchanged {op : Operation} : Outcome h op h
  | read {op : Operation} (n : Nat × (Prepared → Bool)) : Outcome h op (h.ticked n)
  | inserted {op : Operation} {id : VectorId} {v : FloatVector} {m : Metadata} {db : Database}
      {g : Handle} :
      op.Inserts h id v m → h.db.store.insertCheck id v = .ok () → Grown p h.db db id v →
      Wrote { h with db := db } (insertedStore env h id m) g → Outcome h op g
  | upserted {id : VectorId} {v : FloatVector} {m : Metadata} {slot : LocalId} {s : VectorStore}
      {g : Handle} :
      h.db.store.find id = some slot → validateVector v h.db.store.dimension = .ok () →
      VectorStore.Assigned h.db.store s slot
        (VectorStore.storedForm p.toArithmetic h.db.store.normalizes v)
        (VectorStore.storedNorm p.toArithmetic h.db.store.normalizes v) →
      Wrote { h with db := { h.db with store := s } }
        (exec (MetadataStore.set env.sql id m) h.metadata).2 g → Outcome h (.upsert id v m) g
  | removed {id : VectorId} {slot : LocalId} {s : VectorStore} {g : Handle} :
      h.db.store.find id = some slot → VectorStore.Removed h.db.store s id slot →
      Wrote { h with db := { h.db with store := s, index := h.db.index.remove slot } }
        (exec (MetadataStore.remove env.sql id) h.metadata).2 g → Outcome h (.remove id) g
  | metadataSet {id : VectorId} {m : Metadata} {g : Handle} : h.db.store.contains id = true →
      Wrote h (exec (MetadataStore.set env.sql id m) h.metadata).2 g →
      Outcome h (.setMetadata id m) g
  | rebuilt {built : VectorIndex × List VectorId} {g : Handle} :
      builtIndex p h.db.config h.db.store = .ok built →
      Flushed env { h with db := { h.db with
        index := built.1, addedFor := built.2, dirty := true } } g → Outcome h .rebuildIndex g
  | compacted {s : VectorStore} {built : VectorIndex × List VectorId} {g : Handle} :
      Compacted h.db.store s h.db.store.slotCount → builtIndex p h.db.config s = .ok built →
      Flushed env { h with db := { h.db with
        store := s, index := built.1, addedFor := built.2, dirty := true } } g →
      Outcome h .compact g
  | flushed {g : Handle} : Flushed env h g → Outcome h .flush g

variable {b : Prop} {h : Handle} {id : VectorId} {v : FloatVector} {m : Metadata}

theorem insert_outcome (hh : HandleSound b h) {op : Operation} (hop : op.Inserts h id v m) :
    op.Outcome p env h (exec (insert p env id v m) h).2 := by
  cases hc : h.db.store.insertCheck id v with
  | error e =>
    rw [exec_insert_rejected p env hc]
    exact .unchanged
  | ok u =>
    obtain ⟨db, hg, hexec⟩ := exec_insert_accepted p env (m := m) hh.database.store.consistent
      hh.database.index hc
    rw [hexec]
    exact .inserted hop hc hg (finishInsert_wrote env _ id m)

theorem upsert_outcome (hh : HandleSound b h) :
    (Operation.upsert id v m).Outcome p env h (exec (upsert p env id v m) h).2 := by
  cases hfind : h.db.store.find id with
  | none =>
    have hnew : h.db.store.contains id = false := by simp [VectorStore.contains, hfind]
    rw [exec_upsert_new p env hnew]
    exact insert_outcome p env hh ⟨hnew, rfl, rfl, rfl⟩
  | some slot =>
    cases hv : validateVector v h.db.store.dimension with
    | error e =>
      rw [exec_upsert_rejected p env (by simp [VectorStore.contains, hfind]) hv]
      exact .unchanged
    | ok u =>
      obtain ⟨s, hs, hexec⟩ := exec_upsert_accepted p env (m := m) hh.database.store.consistent
        hfind hv
      rw [hexec]
      exact .upserted hfind hv hs (finishUpsert_wrote env _ id m)

/-- Every call leaves the handle in one of these ways. -/
theorem Operation.outcome (hh : HandleSound b h) (op : Operation) :
    op.Outcome p env h (exec (op.run p env) h).2 := by
  cases op with
  | insert id v m => exact insert_outcome p env hh ⟨rfl, rfl, rfl⟩
  | insertAuto v m =>
    rw [run_insertAuto]
    exact insert_outcome p env hh ⟨rfl, rfl, rfl⟩
  | upsert id v m => exact upsert_outcome p env hh
  | remove id =>
    rw [Operation.run, exec_bind_pure]
    cases hfind : h.db.store.find id with
    | none =>
      rw [exec_remove_absent env hfind]
      exact .unchanged
    | some slot =>
      obtain ⟨s, hs, hexec⟩ := exec_remove_present env hfind
      rw [hexec]
      exact .removed hfind hs (finishRemove_wrote env _ id)
  | setMetadata id m =>
    rw [Operation.run]
    cases hc : h.db.store.contains id with
    | false =>
      rw [exec_setMetadata_absent env hc]
      exact .unchanged
    | true =>
      rw [exec_setMetadata_present env hc]
      exact .metadataSet hc (finishSetMetadata_wrote env h id m)
  | getVector id =>
    rw [Operation.run, exec_bind_pure]
    obtain ⟨n, hn⟩ := onlyReads_getVector env id h h h.ticked_refl
    rw [hn]
    exact .read n
  | search q o =>
    rw [Operation.run, exec_bind_pure]
    obtain ⟨n, hn⟩ := onlyReads_search p env q o h h h.ticked_refl
    rw [hn]
    exact .read n
  | stats =>
    rw [Operation.run, exec_bind_pure]
    obtain ⟨n, hn⟩ := onlyReads_stats env h h h.ticked_refl
    rw [hn]
    exact .read n
  | rebuildIndex =>
    obtain ⟨built, hb, hexec⟩ := exec_rebuildIndex p env hh.database.valid
      hh.database.store.consistent
    rw [Operation.run, hexec]
    have hg := finishRebuild_flushedTo env
      { h with db := { h.db with index := built.1, addedFor := built.2 } } ()
    exact .rebuilt hb hg
  | compact =>
    rw [Operation.run, exec_bind_pure]
    by_cases hzero : h.db.store.tombstoneCount = 0
    · rw [exec_compact_none p env hzero]
      exact .unchanged
    · have hs := hh.database.store
      obtain ⟨t, built, ht, hb, hexec⟩ := exec_compact_some p env hh.database.valid hs.consistent
        hs.dimension hs.normalizes hzero
      rw [hexec]
      have hg := finishRebuild_flushedTo env
        { h with db := { h.db with store := t, index := built.1, addedFor := built.2 } }
        h.db.store.tombstoneCount
      exact .compacted ht hb hg
  | flush => exact .flushed (flush_flushedTo env h)

end Outcome

end VectorDb.Db
