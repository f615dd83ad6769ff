import VectorDb.Db.Operations
import VectorDb.Storage.MetadataErrors

/-!
The counter that automatic inserts take their ids from, and the ids that are in use.
-/
set_option autoImplicit false

namespace VectorDb.Db

open VectorDb.Lib VectorDb.Storage VectorDb.Index Throwing

/-- The ids in the slots of vectors.bin. -/
def Files.slotIds (f : Files) : Set VectorId :=
  {id | ∃ s : VectorStore, s.Consistent ∧ f.vectors = some (writeVectorFile s) ∧ id ∈ s.localToId}

def NoRows (id : VectorId) (t : Tables) : Prop := t.rows id = ∅

/-- A vector that has `id`, or once had it, is in a slot of the memory or of vectors.bin
or, where `rows` is asked for, has metadata in the tables. -/
def Handle.Uses (rows : Prop) (h : Handle) (id : VectorId) : Prop :=
  id ∈ h.db.store.localToId ∨ id ∈ h.files.slotIds ∨
    rows ∧ ¬ MetadataStore.Everywhere (NoRows id) h.metadata

def Disk.Uses (rows : Prop) (d : Disk) (id : VectorId) : Prop :=
  id ∈ d.files.slotIds ∨ rows ∧ d.tables.rows id ≠ ∅

/-- The counter is past every id in use. -/
def Handle.Ahead (rows : Prop) (h : Handle) : Prop :=
  ∀ id, h.Uses rows id → id < h.db.nextAutoId

section Uses
variable {rows : Prop} {h g : Handle} {i id : VectorId} {env : Environment}

theorem noRows_deleteByVector {t : Tables} (ht : NoRows i t) : NoRows i (t.deleteByVector id) := by
  rw [NoRows, Tables.rows_deleteByVector, ht, ite_self]

theorem noRows_insertValue {t : Tables} (ht : NoRows i t) (hi : i ≠ id) (key : Text) (row : Row) :
    NoRows i (t.insertValue id key row) := by
  rw [NoRows, Tables.rows_insertValue, if_neg hi]
  exact ht

theorem noRows_set {s : MetadataStore} (hs : s.Everywhere (NoRows i)) (hi : i ≠ id) (m : Metadata) :
    (exec (MetadataStore.set env.sql id m) s).2.Everywhere (NoRows i) :=
  MetadataStore.frames_set (fun _ ht => noRows_deleteByVector ht)
    (fun _ key row ht => noRows_insertValue ht hi key row) m s hs

theorem Files.slotIds_of_write {f : Files} {s : VectorStore} (hs : s.Consistent)
    (hf : f.vectors = some (writeVectorFile s)) : f.slotIds = {id | id ∈ s.localToId} := by
  ext i
  constructor
  · rintro ⟨t, ht, hvectors, hi⟩
    obtain rfl := writeVectorFile_injective hs ht (Option.some.inj (hf.symm.trans hvectors))
    exact hi
  · intro hi
    exact ⟨s, hs, hf, hi⟩

theorem Files.slotIds_congr {f f' : Files} (hf : f'.vectors = f.vectors) :
    f'.slotIds = f.slotIds := by
  rw [slotIds, slotIds, hf]

theorem vectorId_mem {s : VectorStore} (hs : s.localToId.length = s.slotCount) {l : LocalId}
    (hl : l < s.slotCount) : s.vectorId l ∈ s.localToId := by
  rw [VectorStore.vectorId, List.getD_eq_getElem _ _ (hs ▸ hl)]
  exact List.getElem_mem _

theorem mem_of_find {s : VectorStore} (hs : s.Consistent) {l : LocalId}
    (hfind : s.find id = some l) : id ∈ s.localToId := by
  obtain ⟨hl, -, rfl⟩ := (hs.find_iff id l).mp hfind
  exact vectorId_mem hs.ids hl

theorem mem_of_contains {s : VectorStore} (hs : s.Consistent) (hc : s.contains id = true) :
    id ∈ s.localToId := by
  obtain ⟨l, hl⟩ := Option.isSome_iff_exists.mp hc
  exact mem_of_find hs hl

theorem Compacted.mem_ids {s t : VectorStore} (ht : Compacted s t s.slotCount)
    (hs : s.localToId.length = s.slotCount) (hi : i ∈ t.localToId) : i ∈ s.localToId := by
  rw [ht.ids] at hi
  obtain ⟨l, hl, rfl⟩ := List.mem_map.mp hi
  exact vectorId_mem hs (mem_liveSlots.mp hl).1

theorem Handle.Uses.of (hi : g.Uses rows i)
    (hslots : i ∈ g.db.store.localToId → i ∈ h.db.store.localToId)
    (hfiles : i ∈ g.files.slotIds → i ∈ h.db.store.localToId ∨ i ∈ h.files.slotIds)
    (hrows : i ∈ h.db.store.localToId ∨
      (h.metadata.Everywhere (NoRows i) → g.metadata.Everywhere (NoRows i))) : h.Uses rows i := by
  rcases hi with hi | hi | ⟨hr, hi⟩
  · exact .inl (hslots hi)
  · exact (hfiles hi).elim .inl fun hi => .inr (.inl hi)
  · exact hrows.elim .inl fun hrows => .inr (.inr ⟨hr, fun hno => hi (hrows hno)⟩)

theorem Wrote.uses {s : MetadataStore} (hg : Wrote h s g) (hi : g.Uses rows i)
    (hrows : i ∈ h.db.store.localToId ∨
      (h.metadata.Everywhere (NoRows i) → s.Everywhere (NoRows i))) : h.Uses rows i :=
  hi.of (fun hi => hg.store ▸ hi) (fun hi => .inr (hg.files ▸ hi)) (hg.metadata ▸ hrows)

theorem Flushed.uses (hg : Flushed env h g) (hs : h.db.store.Consistent) (hi : g.Uses rows i) :
    h.Uses rows i := by
  refine hi.of (fun hi => hg.store ▸ hi) (fun hi => ?_) (.inr fun hno => ?_)
  · rcases hg.files with hsame | hsame | hsame
    · rw [Files.slotIds_congr hsame.vectors] at hi
      exact .inr hi
    · rw [Files.slotIds_of_write hs hsame.vectors] at hi
      exact .inl hi
    · rw [Files.slotIds_of_write hs (hsame.vectors.trans (Files.flushed_vectors _ _))] at hi
      exact .inl hi
  · rcases hg.metadata with hsame | hset
    · rw [hsame]
      exact hno
    · rw [hset]
      exact MetadataStore.frames_setConfig (fun _ ht => ht) h.metadata hno

end Uses

section Counter
variable {K : Type} [BEq K] [LT K] [DecidableLT K] (p : Platform K) (env : Environment)
variable {rows : Prop} {h : Handle} {i id : VectorId} {v : FloatVector} {m : Metadata}

/-- A call uses no other id than those in use, unless it inserts one. -/
theorem Operation.run_uses (hh : HandleSound False h) (op : Operation)
    (hi : (exec (op.run p env) h).2.Uses rows i) :
    h.Uses rows i ∨ ∃ v m, op.Inserts h i v m ∧ h.db.store.insertCheck i v = .ok () := by
  have hs := hh.database.store.consistent
  have hout := op.outcome p env hh
  generalize (exec (op.run p env) h).2 = g at hout hi
  cases hout with
  | unchanged => exact .inl hi
  | read n => exact .inl (hi.of id .inr (.inr fun hno => ⟨hno.committed, hno.pending⟩))
  | @inserted _ id v m db _ hop hc hgrown hg =>
    by_cases hid : i = id
    · subst hid
      exact .inr ⟨v, m, hop, hc⟩
    · refine .inl (hi.of (fun hi => ?_) (fun hi => .inr (hg.files ▸ hi)) (.inr fun hno => ?_))
      · have hids : g.db.store.localToId = h.db.store.localToId ++ [id] :=
          (congrArg _ hg.store).trans hgrown.store.ids
        rw [hids, List.mem_append, List.mem_singleton] at hi
        exact hi.resolve_right hid
      · rw [hg.metadata]
        unfold insertedStore
        split
        · exact hno
        · exact noRows_set hno hid m
  | @upserted id v m slot s _ hfind _ ha hg =>
    refine .inl (hi.of (fun hi => ?_) (fun hi => .inr (hg.files ▸ hi)) ?_)
    · have hids : g.db.store.localToId = h.db.store.localToId := (congrArg _ hg.store).trans ha.ids
      exact hids ▸ hi
    · by_cases hid : i = id
      · exact .inl (hid ▸ mem_of_find hs hfind)
      · exact .inr fun hno => hg.metadata ▸ noRows_set hno hid m
  | @removed id slot s _ hfind ha hg =>
    refine .inl (hi.of (fun hi => ?_) (fun hi => .inr (hg.files ▸ hi)) (.inr fun hno => ?_))
    · have hids : g.db.store.localToId = h.db.store.localToId := (congrArg _ hg.store).trans ha.ids
      exact hids ▸ hi
    · rw [hg.metadata]
      exact MetadataStore.frames_remove (fun _ ht => noRows_deleteByVector ht) h.metadata hno
  | @metadataSet id m _ hc hg =>
    refine .inl (hg.uses hi ?_)
    by_cases hid : i = id
    · exact .inl (hid ▸ mem_of_contains hs hc)
    · exact .inr fun hno => noRows_set hno hid m
  | rebuilt _ hg => exact .inl (hg.uses hs hi)
  | @compacted s _ _ ht _ hg =>
    exact .inl ((hg.uses ht.consistent hi).of (fun hi => ht.mem_ids hs.ids hi) .inr (.inr id))
  | flushed hg => exact .inl (hg.uses hs hi)

/-- The metadata of an insert is taken by the tables. -/
def MetadataTaken (env : Environment) (h : Handle) (id : VectorId) (m : Metadata) : Prop :=
  m.isEmpty = false → (exec (MetadataStore.set env.sql id m) h.metadata).1 = .ok ()

theorem finishInsert_counter (h : Handle) (id : VectorId) (m : Metadata) :
    (exec (finishInsert env id m) h).2.db.nextAutoId = h.db.nextAutoId ∨
      (exec (finishInsert env id m) h).2.db.nextAutoId = advance h.db.nextAutoId id := by
  cases hm : m.isEmpty with
  | true => simp [finishInsert, hm]
  | false =>
    simp only [finishInsert, hm, Bool.not_false, if_true, exec_bind, exec_onDirectory,
      exec_onMetadata, exec_update]
    rcases exec (MetadataStore.set env.sql id m) h.metadata with ⟨r, s⟩
    cases r with
    | error e => exact .inl rfl
    | ok u => exact .inr rfl

theorem finishInsert_taken {env : Environment} (hm : MetadataTaken env h id m) :
    (exec (finishInsert env id m) h).2.db.nextAutoId = advance h.db.nextAutoId id := by
  cases hempty : m.isEmpty with
  | true => simp [finishInsert, hempty]
  | false =>
    have hset := hm hempty
    simp only [finishInsert, hempty, Bool.not_false, if_true, exec_bind, exec_onDirectory,
      exec_onMetadata, exec_update]
    rcases hexec : exec (MetadataStore.set env.sql id m) h.metadata with ⟨r, s⟩
    rw [hexec] at hset
    cases hset
    rfl

/-- What an accepted insert makes of the counter. -/
structure Counted (env : Environment) (h : Handle) (id : VectorId) (m : Metadata) (g : Handle) :
    Prop where
  either : g.db.nextAutoId = h.db.nextAutoId ∨ g.db.nextAutoId = advance h.db.nextAutoId id
  taken : MetadataTaken env h id m → g.db.nextAutoId = advance h.db.nextAutoId id

theorem insert_counted (hh : HandleSound False h) (hc : h.db.store.insertCheck id v = .ok ()) :
    Counted env h id m (exec (insert p env id v m) h).2 := by
  obtain ⟨db, hg, hexec⟩ := exec_insert_accepted p env (m := m) hh.database.store.consistent
    hh.database.index hc
  have hnext : db.nextAutoId = h.db.nextAutoId := by rw [hg.rest]
  rw [hexec]
  constructor
  · rw [← hnext]
    exact finishInsert_counter env _ id m
  · intro hm
    rw [← hnext]
    exact finishInsert_taken (h := { h with db := db }) hm

/-- A write of metadata alone leaves the counter. -/
theorem finishUpsert_counter (h : Handle) (id : VectorId) (m : Metadata) :
    (exec (finishUpsert env id m) h).2.db.nextAutoId = h.db.nextAutoId := by
  simp only [finishUpsert, exec_bind, exec_onDirectory, exec_onMetadata]
  rcases exec (MetadataStore.set env.sql id m) h.metadata with ⟨r, s⟩
  cases r <;> rfl

theorem finishSetMetadata_counter (h : Handle) (id : VectorId) (m : Metadata) :
    (exec (finishSetMetadata env id m) h).2.db.nextAutoId = h.db.nextAutoId := by
  simp only [finishSetMetadata, exec_bind, exec_onDirectory, exec_onMetadata]
  rcases exec (MetadataStore.set env.sql id m) h.metadata with ⟨r, s⟩
  cases r <;> rfl

theorem finishRemove_counter (h : Handle) (id : VectorId) :
    (exec (finishRemove env id) h).2.db.nextAutoId = h.db.nextAutoId := by
  simp only [finishRemove, exec_bind, exec_onDirectory, exec_onMetadata]
  rcases exec (MetadataStore.remove env.sql id) h.metadata with ⟨r, s⟩
  cases r <;> rfl

theorem Operation.Inserts.counted {op : Operation} (hop : op.Inserts h id v m)
    (hh : HandleSound False h) (hc : h.db.store.insertCheck id v = .ok ()) :
    Counted env h id m (exec (op.run p env) h).2 := by
  cases op with
  | insert i w n =>
    obtain ⟨rfl, rfl, rfl⟩ := hop
    exact insert_counted p env hh hc
  | insertAuto w n =>
    obtain ⟨rfl, rfl, rfl⟩ := hop
    rw [Operation.run_insertAuto]
    exact insert_counted p env hh hc
  | upsert i w n =>
    obtain ⟨hnew, rfl, rfl, rfl⟩ := hop
    rw [Operation.run, exec_upsert_new p env hnew]
    exact insert_counted p env hh hc
  | _ => exact hop.elim

/-- The counter moves with accepted inserts only. -/
theorem Operation.run_counter (hh : HandleSound False h) (op : Operation) :
    (exec (op.run p env) h).2.db.nextAutoId = h.db.nextAutoId ∨
      ∃ id v m, op.Inserts h id v m ∧ h.db.store.insertCheck id v = .ok () := by
  have hs := hh.database.store.consistent
  cases op with
  | insert id v m =>
    cases hc : h.db.store.insertCheck id v with
    | error e =>
      rw [Operation.run, exec_insert_rejected p env hc]
      exact .inl rfl
    | ok u => exact .inr ⟨id, v, m, ⟨rfl, rfl, rfl⟩, hc⟩
  | insertAuto v m =>
    rw [run_insertAuto]
    cases hc : h.db.store.insertCheck h.db.nextAutoId v with
    | error e =>
      rw [exec_insert_rejected p env hc]
      exact .inl rfl
    | ok u => exact .inr ⟨_, v, m, ⟨rfl, rfl, rfl⟩, hc⟩
  | upsert id v m =>
    rw [Operation.run]
    cases hfind : h.db.store.find id with
    | none =>
      have hnew : h.db.store.contains id = false := by simp [VectorStore.contains, hfind]
      rw [exec_upsert_new p env hnew]
      cases hc : h.db.store.insertCheck id v with
      | error e =>
        rw [exec_insert_rejected p env hc]
        exact .inl rfl
      | ok u => exact .inr ⟨id, v, m, ⟨hnew, rfl, rfl, rfl⟩, hc⟩
    | some slot =>
      refine .inl ?_
      cases hv : validateVector v h.db.store.dimension with
      | error e => rw [exec_upsert_rejected p env (by simp [VectorStore.contains, hfind]) hv]
      | ok u =>
        obtain ⟨s, -, hexec⟩ := exec_upsert_accepted p env (m := m) hs hfind hv
        rw [hexec, finishUpsert_counter]
  | remove id =>
    refine .inl ?_
    rw [Operation.run, exec_bind_pure]
    cases hfind : h.db.store.find id with
    | none => rw [exec_remove_absent env hfind]
    | some slot =>
      obtain ⟨s, -, hexec⟩ := exec_remove_present env hfind
      rw [hexec]
      exact finishRemove_counter env _ id
  | setMetadata id m =>
    refine .inl ?_
    rw [Operation.run]
    cases hc : h.db.store.contains id with
    | false => rw [exec_setMetadata_absent env hc]
    | true => rw [exec_setMetadata_present env hc, finishSetMetadata_counter]
  | getVector id =>
    rw [Operation.run, exec_bind_pure]
    obtain ⟨n, hn⟩ := onlyReads_getVector env id h h h.ticked_refl
    exact .inl (by rw [hn]; rfl)
  | search q o =>
    rw [Operation.run, exec_bind_pure]
    obtain ⟨n, hn⟩ := onlyReads_search p env q o h h h.ticked_refl
    exact .inl (by rw [hn]; rfl)
  | stats =>
    rw [Operation.run, exec_bind_pure]
    obtain ⟨n, hn⟩ := onlyReads_stats env h h h.ticked_refl
    exact .inl (by rw [hn]; rfl)
  | rebuildIndex =>
    obtain ⟨built, -, hexec⟩ := exec_rebuildIndex p env hh.database.valid hs
    rw [Operation.run, hexec]
    exact .inl (finishRebuild_flushedTo env _ ()).nextAutoId
  | compact =>
    refine .inl ?_
    rw [Operation.run, exec_bind_pure]
    by_cases hzero : h.db.store.tombstoneCount = 0
    · rw [exec_compact_none p env hzero]
    · obtain ⟨t, built, -, -, hexec⟩ := exec_compact_some p env hh.database.valid hs
        hh.database.store.dimension hh.database.store.normalizes hzero
      rw [hexec]
      exact (finishRebuild_flushedTo env _ _).nextAutoId
  | flush => exact .inl (flush_flushedTo env h).nextAutoId

/-- The last id, past which the counter wraps to zero. -/
def lastId : VectorId := 18446744073709551615

theorem lt_advance {n id : VectorId} (hid : n ≤ id → id ≠ lastId) : id < advance n id := by
  unfold advance
  split
  next hn => exact Fin.lt_add_one_iff.mpr (Fin.lt_last_iff_ne_last.mpr (hid hn))
  next hn => exact not_le.mp hn

theorem le_advance {n id : VectorId} (hid : n ≤ id → id ≠ lastId) : n ≤ advance n id := by
  by_cases hn : n ≤ id
  · exact hn.trans (lt_advance hid).le
  · rw [advance, if_neg hn]

/-- An accepted insert of an id that the counter has not passed is not of the last id, and
its metadata is taken. -/
def Operation.Counts (env : Environment) (h : Handle) (op : Operation) : Prop :=
  ∀ id v m, op.Inserts h id v m → h.db.store.insertCheck id v = .ok () → h.db.nextAutoId ≤ id →
    id ≠ lastId ∧ MetadataTaken env h id m

theorem Operation.run_ahead {op : Operation} (hh : HandleSound False h) (ha : h.Ahead rows)
    (hop : op.Counts env h) : (exec (op.run p env) h).2.Ahead rows := by
  intro i hi
  have hle : h.db.nextAutoId ≤ (exec (op.run p env) h).2.db.nextAutoId := by
    rcases op.run_counter p env hh with heq | ⟨id, v, m, hins, hc⟩
    · exact heq.ge
    · rcases (hins.counted p env hh hc).either with heq | heq
      · exact heq.ge
      · exact heq ▸ le_advance fun hid => (hop id v m hins hc hid).1
  rcases op.run_uses p env hh hi with hi | ⟨v, m, hins, hc⟩
  · exact (ha i hi).trans_le hle
  · by_cases hid : h.db.nextAutoId ≤ i
    · obtain ⟨hlast, htaken⟩ := hop i v m hins hc hid
      rw [(hins.counted p env hh hc).taken htaken]
      exact lt_advance fun _ => hlast
    · exact (not_le.mp hid).trans_le hle

end Counter

section Runs
variable {K : Type} [BEq K] [LT K] [DecidableLT K] (p : Platform K) (env : Environment)
variable {rows : Prop} {h : Handle}

/-- Inserts are counted, and a database is opened only where the counter on disk is past
every id in use there. -/
def CountsAhead (rows : Prop) (event : Event) (env : Environment) (s : State) : Prop :=
  match event, s with
  | .call op, .opened h => op.Counts env h
  | .reopen, .closed d => ∀ id, d.Uses rows id → ∀ n, nextIdOf d.tables = .ok n → id.val < n
  | _, _ => True

def State.Ahead (rows : Prop) : State → Prop
  | .opened h => h.Ahead rows
  | _ => True

/-- Nothing is in use in a new database. -/
theorem create_ahead {c : DatabaseConfig} (hv : c.validate = .ok ()) :
    (State.ofCall (exec (create p env c) newDirectory)).Ahead rows := by
  have hspec := create_spec p env hv newDirectory ⟨.refl _, MetadataStore.holds_fresh _⟩
  rcases hexec : exec (create p env c) newDirectory with ⟨r, d⟩
  rw [hexec] at hspec
  cases r with
  | error e => trivial
  | ok db =>
    obtain ⟨made, hmade, hat⟩ := hspec
    have hs := hmade.store.consistent
    have hids : made.store.localToId = [] :=
      List.length_eq_zero_iff.mp (hs.ids.trans hmade.slotCount)
    have hdb : db.store = made.store := by
      have hdb : db = { made with dirty := false } := hat.db
      rw [hdb]
    rintro id (hi | hi | ⟨-, hi⟩)
    · have hi : id ∈ db.store.localToId := hi
      rw [hdb, hids] at hi
      cases hi
    · have hvectors := hat.files.vectors.trans (Files.flushed_vectors _ _)
      rw [Files.slotIds_of_write hs hvectors, hids] at hi
      cases hi
    · refine absurd (hat.tables.everywhere ?_) hi
      simp [NoRows, newTables, configuredTables, DatabaseConfig.entries, Tables.rows,
        Tables.setConfigValue]

theorem openDatabase_ahead {d : Disk} (hd : DiskSound False d)
    (hcount : ∀ id, d.Uses rows id → ∀ n, nextIdOf d.tables = .ok n → id.val < n) :
    (State.ofCall (exec (openDatabase p env) d.directory)).Ahead rows := by
  rcases hd.sound with habandoned | ⟨c, hv, hsized, hfiles, htables⟩
  · have hopen := openDatabase_abandoned p env d.directory habandoned.fresh
    rcases hexec : exec (openDatabase p env) d.directory with ⟨r, t⟩
    rw [hexec] at hopen
    cases r with
    | ok db => exact hopen.elim
    | error e => trivial
  · obtain ⟨s, next, hs, hvectors, hnext, hopen⟩ := reopen_spec p env hv hsized hfiles htables
    have hspec := hopen d.directory ⟨.refl _, MetadataStore.holds_fresh _⟩
    rcases hexec : exec (openDatabase p env) d.directory with ⟨r, t⟩
    rw [hexec] at hspec
    cases r with
    | error e => trivial
    | ok db =>
      obtain ⟨hsame, hholds, ho, hid⟩ := hspec
      have huses : ∀ i, Handle.Uses rows ⟨t, db⟩ i → d.Uses rows i := by
        rintro i (hi | hi | ⟨hr, hi⟩)
        · have hi : i ∈ db.store.localToId := hi
          rw [ho.store] at hi
          rcases hvectors with hvectors | ⟨-, hcount⟩
          · exact .inl ⟨s, hs.consistent, hvectors, hi⟩
          · rw [List.length_eq_zero_iff.mp (hs.consistent.ids.trans hcount)] at hi
            cases hi
        · exact .inl (Files.slotIds_congr hsame.vectors ▸ hi)
        · refine .inr ⟨hr, fun hno => hi (hholds.everywhere ?_)⟩
          rw [NoRows, ← hno]
          simp [Tables.rows]
      intro i hi
      have hlt := hcount i (huses i hi) _ (nextIdOf_eq hnext)
      have hcounter : db.nextAutoId = next := hid
      exact hcounter ▸ hlt

theorem State.after_ahead {s : State} {event : Event} (hs : s.Sound False) (ha : s.Ahead rows)
    (hok : CountsAhead rows event env s) : (s.after p env event).Ahead rows := by
  cases s with
  | absent =>
    cases event with
    | create config sized =>
      cases hv : config.validate with
      | error e => simp [State.after, hv, State.Ahead]
      | ok u =>
        rw [State.after_create p env sized hv]
        exact create_ahead p env hv
    | _ => trivial
  | closed d =>
    cases event with
    | reopen => exact openDatabase_ahead p env hs hok
    | _ => trivial
  | opened h =>
    cases event with
    | call op => exact op.run_ahead p env hs ha hok
    | crash => trivial
    | close => trivial
    | _ => exact ha

theorem reachable_ahead (hr : (runs p (CountsAhead rows)).Reachable (.opened h)) :
    HandleSound False h ∧ h.Ahead rows := by
  refine hr.invariant (P := fun s => s.Sound False ∧ s.Ahead rows) ?_ ?_
  · rintro _ rfl
    exact ⟨trivial, trivial⟩
  · rintro s _ ⟨hs, ha⟩ ⟨event, env, hok, rfl⟩
    exact ⟨State.after_sound p env hs event fun _ _ _ h => h.elim,
      State.after_ahead p env hs ha hok⟩

theorem throwsOnly_finishInsert (id : VectorId) (m : Metadata) :
    ThrowsOnly Error.OfMetadata (finishInsert env id m) :=
  .ite ((throwsOnly_set env.sql id m).on.on.bind fun _ =>
    (ThrowsOnly.modify _).bind fun _ => .modify _) (.modify _)

theorem insertCheck_ne_duplicateId {s : VectorStore} {id : VectorId} {v : FloatVector}
    (hnew : s.contains id = false) (i : VectorId) :
    s.insertCheck id v ≠ .error (.duplicateId i) := by
  unfold VectorStore.insertCheck validateVector
  rw [hnew, if_neg (by simp)]
  split
  · exact fun h => by cases h
  · split
    · exact fun h => by cases h
    · split <;> exact fun h => by cases h

/-- An automatic insert is given an id that nothing uses, and is never told that it is in
use. -/
def FreshIds (rows : Prop) (h : Handle) : Prop :=
  ∀ (env : Environment) (v : FloatVector) (m : Metadata),
    (∀ id h', exec (insertAuto p env v m) h = (.ok id, h') → ¬ h.Uses rows id) ∧
      ∀ id h', exec (insertAuto p env v m) h ≠ (.error (.duplicateId id), h')

theorem Handle.Ahead.freshIds (hh : HandleSound False h) (ha : h.Ahead rows) :
    FreshIds p rows h := by
  have hfresh : ¬ h.Uses rows h.db.nextAutoId := fun hi => lt_irrefl _ (ha _ hi)
  have hs := hh.database.store.consistent
  refine fun env v m => ⟨fun id h' hexec => ?_, fun id h' hexec => ?_⟩
  · rw [exec_insertAuto] at hexec
    split at hexec
    · cases hexec
      exact hfresh
    · cases hexec
  · have hnew : h.db.store.contains h.db.nextAutoId = false := by
      rw [Bool.eq_false_iff]
      exact fun hc => hfresh (.inl (mem_of_contains hs hc))
    have hinsert : (exec (insert p env h.db.nextAutoId v m) h).1 = .error (.duplicateId id) := by
      rw [exec_insertAuto] at hexec
      split at hexec
      next h₁ => cases hexec
      next h₁ =>
        cases hexec
        rw [h₁]
    cases hc : h.db.store.insertCheck h.db.nextAutoId v with
    | error e =>
      rw [exec_insert_rejected p env hc] at hinsert
      cases hinsert
      exact insertCheck_ne_duplicateId hnew id hc
    | ok u =>
      obtain ⟨db, -, heq⟩ := exec_insert_accepted p env (m := m) hs hh.database.index hc
      rw [heq] at hinsert
      exact throwsOnly_finishInsert env _ m _ _ hinsert

/-- In every run in which the inserts are counted and no database is opened behind its
counter, automatic ids are fresh. -/
theorem automatic_ids_fresh (hr : (runs p (CountsAhead rows)).Reachable (.opened h)) :
    FreshIds p rows h := by
  obtain ⟨hh, ha⟩ := reachable_ahead p hr
  exact ha.freshIds p hh

end Runs

section OneVector
variable {K : Type} [BEq K] [LT K] [DecidableLT K] (p : Platform K) {c : DatabaseConfig}
variable {v : FloatVector} {h₀ h₁ : Handle}

theorem OneVector.nextAutoId (hone : OneVector p c 0 v ∅ h₀ h₁) :
    h₀.db.nextAutoId = 0 ∧ h₁.db.nextAutoId = 1 := by
  obtain ⟨made, hmade, hat₀⟩ := hone.empty
  obtain ⟨grown, t, -, hgrown, hat₁⟩ := hone.one
  have hzero : h₀.db.nextAutoId = 0 := by
    rw [hat₀.db]
    exact hmade.nextAutoId
  have hgrown : grown.nextAutoId = h₀.db.nextAutoId := by rw [hgrown.rest]
  refine ⟨hzero, ?_⟩
  rw [hat₁.db, hgrown, hzero]
  exact (by decide : advance 0 0 = 1)

/-- The last id is inserted, and the next automatic one is that of the first vector. -/
theorem OneVector.wraps (hone : OneVector p c 0 v ∅ h₀ h₁) (sized : c.Sized)
    (hv : validateVector v c.dimension = .ok ()) :
    ∃ h₂, (runs p fun _ _ _ => True).Reachable (.opened h₂) ∧
      exec (insertAuto p faultless v ∅) h₂ = (.error (.duplicateId 0), h₂) := by
  obtain ⟨grown, t, -, hgrown, hat₁⟩ := hone.one
  have hsound := hone.sound
  have hfind := hone.find
  have hstore : h₁.db.store = grown.store := by rw [hat₁.db]
  have hlast : h₁.db.store.contains lastId = false := by
    cases hl : h₁.db.store.find lastId with
    | none => rw [VectorStore.contains, hl]; rfl
    | some l =>
      have hs := hsound.database.store.consistent
      obtain ⟨hlt, -, hid⟩ := (hs.find_iff _ _).mp hl
      obtain ⟨-, -, hzero⟩ := (hs.find_iff _ _).mp hfind
      rw [hone.slotCount] at hlt
      obtain rfl : l = 0 := Nat.lt_one_iff.mp hlt
      exact absurd (hzero.symm.trans hid) (by decide)
  have hcheck : h₁.db.store.insertCheck lastId v = .ok () := by
    rw [VectorStore.insertCheck, hlast, hone.slotCount, if_neg (by simp), if_neg (by decide),
      hsound.database.store.dimension, hone.config]
    exact hv
  obtain ⟨db, h₂, hgrown₂, hinsert, hat₂⟩ := insert_quiet p quiet_faultless hsound hat₁.tables
    hcheck (m := ∅) (by simp)
  refine ⟨h₂, .step (hone.reachable p _ sized trivial trivial)
    ⟨.call (.insert lastId v ∅), faultless, trivial, ?_⟩, ?_⟩
  · rw [State.after_call, Operation.run, hinsert]
  · have hnext : h₂.db.nextAutoId = 0 := by
      have hdb : db.nextAutoId = h₁.db.nextAutoId := by rw [hgrown₂.rest]
      rw [hat₂.db, hdb, hone.nextAutoId.2]
      exact (by decide : advance 1 lastId = 0)
    have hheld : h₂.db.store.contains 0 = true := by
      rw [hat₂.db]
      show db.store.contains 0 = true
      rw [VectorStore.contains, hgrown₂.store.find fun _ => hlast, if_neg (by decide), hfind]
      rfl
    have hrejected : h₂.db.store.insertCheck h₂.db.nextAutoId v = .error (.duplicateId 0) := by
      rw [hnext, VectorStore.insertCheck, if_pos hheld]
    rw [exec_insertAuto, exec_insert_rejected p faultless hrejected]

end OneVector

theorem automatic_ids_fresh_one_vector :
    ∃ h : Handle, h.db.store.slotCount = 1 ∧ FreshIds unitPlatform True h := by
  obtain ⟨h₀, h₁, hone⟩ := exists_unitVector ∅ (by simp)
  refine ⟨h₁, hone.slotCount, automatic_ids_fresh unitPlatform
    (hone.reachable unitPlatform (CountsAhead True) unitConfig_sized trivial ?_)⟩
  rintro id v m ⟨rfl, rfl, rfl⟩ - -
  exact ⟨by decide, fun hm => by simp at hm⟩

theorem last_id_wraps : ¬ ∀ h : Handle,
    (runs unitPlatform fun _ _ _ => True).Reachable (.opened h) → FreshIds unitPlatform False h := by
  intro hall
  obtain ⟨h₀, h₁, hone⟩ := exists_unitVector ∅ (by simp)
  obtain ⟨h₂, hr, hauto⟩ := hone.wraps unitPlatform unitConfig_sized (by decide)
  exact (hall h₂ hr faultless _ ∅).2 0 h₂ hauto

end VectorDb.Db
