import VectorDb.Db.Lossless

/-!
The flag `has_metadata_`: where SQLite begins and ends its transactions as it is told,
a flag that is not set means that there are no rows.
-/
set_option autoImplicit false

namespace VectorDb.Db

open VectorDb.Lib VectorDb.Storage VectorDb.Index Throwing

/-- Without the flag, no vector has rows. -/
def Flagged (t : Tables) (db : Database) : Prop := db.hasMetadata = false → ∀ id, t.rows id = ∅

/-- Nothing is open in SQLite, and the flag is right. -/
def Handle.Flagged (h : Handle) : Prop := ∃ t, h.metadata.Holds t ∧ Db.Flagged t h.db

section Calls
variable {f : Files} {t : Tables} {d db : Database} {env : Environment}

theorem At.flagged {h : Handle} (hh : At f t db h) (hfl : Flagged t db) : h.Flagged :=
  ⟨t, hh.tables, hh.db ▸ hfl⟩

theorem Flagged.of_flag (hfl : Flagged t d) (hflag : db.hasMetadata = d.hasMetadata) :
    Flagged t db := fun h => hfl (hflag ▸ h)

/-- The rows that are written set the flag; without any, it stays right. -/
theorem Flagged.replaced (hfl : Flagged t db) (id : VectorId) (m : Metadata) {e : Database}
    (hflag : e.hasMetadata = (db.hasMetadata || !m.isEmpty)) :
    Flagged (t.replaceRows id m.toList) e := by
  intro h i
  rw [hflag, Bool.or_eq_false_iff, Bool.not_eq_false'] at h
  exact rows_replaceRows_of_isEmpty h.2 (hfl h.1 i)

variable (hf : TransactionCallsSucceed env.sql)
include hf

/-- A `set` that throws leaves everything as it was. -/
theorem set_at_closed (id : VectorId) (m : Metadata) :
    Triple (At f t db) (onDirectory (onMetadata (MetadataStore.set env.sql id m)))
      (fun _ => At f (t.replaceRows id m.toList) db) (fun _ => At f t db) :=
  (onMetadata_at (MetadataStore.set_closed hf id m t)).conseq (fun _ h => h)
    (fun _ _ h => ⟨h.1, h.2.1, h.2.2⟩) fun _ _ h => ⟨h.1, h.2.1, h.2.2⟩

theorem finishInsert_flagged (hfl : Flagged t db) (id : VectorId) (m : Metadata) :
    Triple (At f t db) (finishInsert env id m) (fun _ => Handle.Flagged)
      (fun _ => Handle.Flagged) := by
  cases hm : m.isEmpty with
  | true =>
    simp only [finishInsert, hm, Bool.not_true, Bool.false_eq_true, if_false]
    exact (update_at _).conseq (fun _ h => h) (fun _ _ h => h.flagged (hfl.of_flag rfl))
      fun _ _ h => h
  | false =>
    simp only [finishInsert, hm, Bool.not_false, if_true]
    refine Triple.bind ((set_at_closed hf id m).conseq (fun _ h => h) (fun _ _ h => h)
      fun _ _ h => h.flagged hfl) fun _ => ?_
    refine Triple.bind (update_at _) fun _ => ?_
    exact (update_at _).conseq (fun _ h => h) (fun _ _ h => h.flagged fun hno => by cases hno)
      fun _ _ h => h

theorem finishUpsert_flagged (hfl : Flagged t db) (id : VectorId) (m : Metadata) :
    Triple (At f t db) (finishUpsert env id m) (fun _ => Handle.Flagged)
      (fun _ => Handle.Flagged) := by
  refine Triple.bind ((set_at_closed hf id m).conseq (fun _ h => h) (fun _ _ h => h)
    fun _ _ h => h.flagged hfl) fun _ => ?_
  exact (update_at _).conseq (fun _ h => h) (fun _ _ h => h.flagged (hfl.replaced id m rfl))
    fun _ _ h => h

theorem finishSetMetadata_flagged (hfl : Flagged t db) (id : VectorId) (m : Metadata) :
    Triple (At f t db) (finishSetMetadata env id m) (fun _ => Handle.Flagged)
      (fun _ => Handle.Flagged) := by
  refine Triple.bind ((set_at_closed hf id m).conseq (fun _ h => h) (fun _ _ h => h)
    fun _ _ h => h.flagged hfl) fun _ => ?_
  exact (update_at _).conseq (fun _ h => h) (fun _ _ h => h.flagged (hfl.replaced id m rfl))
    fun _ _ h => h

end Calls

section Operations
variable {K : Type} [BEq K] [LT K] [DecidableLT K] (p : Platform K) {env : Environment}
variable {h : Handle} {id : VectorId} {v : FloatVector} {m : Metadata}

theorem insert_flagged (hf : TransactionCallsSucceed env.sql) (hh : HandleSound False h)
    (hfl : h.Flagged) : (exec (insert p env id v m) h).2.Flagged := by
  obtain ⟨t, ht, hfl⟩ := hfl
  cases hc : h.db.store.insertCheck id v with
  | error e =>
    rw [exec_insert_rejected p env hc]
    exact ⟨t, ht, hfl⟩
  | ok u =>
    obtain ⟨db, hg, hexec⟩ := exec_insert_accepted p env (m := m) hh.database.store.consistent
      hh.database.index hc
    rw [hexec]
    exact (finishInsert_flagged hf (hfl.of_flag (by rw [hg.rest])) id m).after (at_of_holds ht db)

theorem upsert_flagged (hf : TransactionCallsSucceed env.sql) (hh : HandleSound False h)
    (hfl : h.Flagged) : (exec (upsert p env id v m) h).2.Flagged := by
  cases hfind : h.db.store.find id with
  | none =>
    rw [exec_upsert_new p env (by simp [VectorStore.contains, hfind])]
    exact insert_flagged p hf hh hfl
  | some slot =>
    obtain ⟨t, ht, hfl⟩ := hfl
    cases hv : validateVector v h.db.store.dimension with
    | error e =>
      rw [exec_upsert_rejected p env (by simp [VectorStore.contains, hfind]) hv]
      exact ⟨t, ht, hfl⟩
    | ok u =>
      obtain ⟨s, -, hexec⟩ := exec_upsert_accepted p env (m := m) hh.database.store.consistent
        hfind hv
      rw [hexec]
      have hfl : Db.Flagged t { h.db with store := s } := hfl
      exact (finishUpsert_flagged hf hfl id m).after (at_of_holds ht _)

theorem remove_flagged (hfl : h.Flagged) : (exec (remove env id) h).2.Flagged := by
  cases hfind : h.db.store.find id with
  | none =>
    rw [exec_remove_absent env hfind]
    exact hfl
  | some slot =>
    obtain ⟨t, ht, hfl⟩ := hfl
    obtain ⟨s, -, hexec⟩ := exec_remove_present env hfind
    rw [hexec]
    refine ((finishRemove_spec env id).conseq (fun _ h => h) (fun _ g hg => ?_)
      fun _ g hg => ?_).after (at_of_holds ht _) (S := Handle.Flagged)
    · obtain ⟨-, u, hu, hg⟩ := hg
      refine hg.flagged fun hno i => ?_
      rw [hu.rows, hfl hno, ite_self]
    · exact hg.1.flagged (hfl.of_flag rfl)

theorem setMetadata_flagged (hf : TransactionCallsSucceed env.sql) (hfl : h.Flagged) :
    (exec (setMetadata env id m) h).2.Flagged := by
  cases hc : h.db.store.contains id with
  | false =>
    rw [exec_setMetadata_absent env hc]
    exact hfl
  | true =>
    obtain ⟨t, ht, hfl⟩ := hfl
    rw [exec_setMetadata_present env hc]
    exact (finishSetMetadata_flagged hf hfl id m).after (at_of_holds ht h.db)

theorem flush_flagged (env : Environment) : Maintains Handle.Flagged (flush env) := by
  rintro h ⟨t, ht, hfl⟩
  cases hd : h.db.dirty with
  | false =>
    rw [exec_flush, hd, if_neg (by simp)]
    exact ⟨t, ht, hfl⟩
  | true =>
    refine ((flush_spec env hd).conseq (fun _ h => h) (fun _ g hg => hg.flagged hfl)
      fun _ g hg => ?_).after (at_of_holds ht h.db)
    exact ⟨t, hg.tables, hg.db ▸ hfl⟩

theorem update_flagged {g : Database → Database}
    (hg : ∀ db, (g db).hasMetadata = db.hasMetadata) : Maintains Handle.Flagged (update g) :=
  fun h ⟨t, ht, hfl⟩ => ⟨t, ht, hfl.of_flag (hg h.db)⟩

theorem finishRebuild_flagged {α : Type} (env : Environment) (result : α) :
    Maintains Handle.Flagged (finishRebuild env result) :=
  Maintains.bind (update_flagged fun _ => rfl) fun _ =>
    Maintains.bind (flush_flagged env) fun _ => Maintains.pure _

/-- Whether a call throws or not, the flag stays right. -/
theorem Operation.run_flagged (op : Operation) (hf : TransactionCallsSucceed env.sql)
    (hh : HandleSound False h) (hfl : h.Flagged) : (exec (op.run p env) h).2.Flagged := by
  cases op with
  | insert id v m => exact insert_flagged p hf hh hfl
  | insertAuto v m =>
    rw [run_insertAuto]
    exact insert_flagged p hf hh hfl
  | upsert id v m => exact upsert_flagged p hf hh hfl
  | remove id =>
    rw [Operation.run, exec_bind_pure]
    exact remove_flagged hfl
  | setMetadata id m => exact setMetadata_flagged hf hfl
  | getVector id =>
    rw [Operation.run, exec_bind_pure]
    obtain ⟨t, ht, hfl⟩ := hfl
    exact ((getVector_spec env id).conseq (fun _ h => h) (fun _ g hg => hg.2.flagged hfl)
      fun _ g hg => hg.1.flagged hfl).after (at_of_holds ht h.db)
  | search q o =>
    rw [Operation.run, exec_bind_pure]
    obtain ⟨t, ht, hfl⟩ := hfl
    exact ((search_spec p env hfl q o).conseq (fun _ h => h) (fun _ g hg => hg.2.flagged hfl)
      fun _ g hg => hg.1.flagged hfl).after (at_of_holds ht h.db)
  | stats =>
    rw [Operation.run, exec_bind_pure]
    obtain ⟨t, ht, hfl⟩ := hfl
    exact (stats_at env h (at_of_holds ht h.db)).flagged hfl
  | rebuildIndex =>
    obtain ⟨built, -, hexec⟩ := exec_rebuildIndex p env hh.database.valid
      hh.database.store.consistent
    rw [Operation.run, hexec]
    exact finishRebuild_flagged env () _ hfl
  | compact =>
    rw [Operation.run, exec_bind_pure]
    by_cases hzero : h.db.store.tombstoneCount = 0
    · rw [exec_compact_none p env hzero]
      exact hfl
    · have hs := hh.database.store
      obtain ⟨s, built, -, -, hexec⟩ := exec_compact_some p env hh.database.valid hs.consistent
        hs.dimension hs.normalizes hzero
      rw [hexec]
      exact finishRebuild_flagged env _ _ hfl
  | flush => exact flush_flagged env h hfl

end Operations

section Runs
variable {K : Type} [BEq K] [LT K] [DecidableLT K] (p : Platform K) {env : Environment}

/-- SQLite begins, commits and rolls back as it is told; any statement and any file access
may fail, and a process may die between two calls. -/
def TransactionsSucceed (_ : Event) (env : Environment) (_ : State) : Prop :=
  TransactionCallsSucceed env.sql

def State.Flagged : State → Prop
  | .opened h => h.Flagged
  | _ => True

theorem create_flagged {c : DatabaseConfig} (hv : c.validate = .ok ()) :
    (State.ofCall (exec (create p env c) newDirectory)).Flagged := by
  have hspec := create_spec p env hv newDirectory ⟨.refl _, MetadataStore.holds_fresh _⟩
  rcases hexec : exec (create p env c) newDirectory with ⟨r, d⟩
  rw [hexec] at hspec
  cases r with
  | error e => trivial
  | ok db =>
    obtain ⟨made, -, hat⟩ := hspec
    refine hat.flagged fun _ id => ?_
    simp [newTables, configuredTables, DatabaseConfig.entries, Tables.rows, Tables.setConfigValue]

theorem openDatabase_flagged {d : Disk} (hd : DiskSound False d) :
    (State.ofCall (exec (openDatabase p env) d.directory)).Flagged := by
  rcases hd.sound with habandoned | ⟨c, hv, hsized, hfiles, htables⟩
  · have hopen := openDatabase_abandoned p env d.directory habandoned.fresh
    rcases hexec : exec (openDatabase p env) d.directory with ⟨r, t⟩
    rw [hexec] at hopen
    cases r with
    | ok db => exact hopen.elim
    | error e => trivial
  · obtain ⟨s, id, -, -, -, hopen⟩ := reopen_spec p env hv hsized hfiles htables
    have hspec := hopen d.directory ⟨.refl _, MetadataStore.holds_fresh _⟩
    rcases hexec : exec (openDatabase p env) d.directory with ⟨r, t⟩
    rw [hexec] at hspec
    cases r with
    | error e => trivial
    | ok db =>
      obtain ⟨-, hholds, ho, -⟩ := hspec
      refine ⟨_, hholds, fun hno i => ?_⟩
      have hsize := ho.hasMetadata
      rw [hno] at hsize
      have hempty : d.tables.metadata = ∅ :=
        Std.ExtTreeMap.eq_empty_iff_size_eq_zero.mpr (by simpa using hsize.symm)
      simp [Tables.rows, hempty]

theorem State.after_flagged {s : State} (event : Event) (hf : TransactionCallsSucceed env.sql)
    (hs : s.Sound False) (hfl : s.Flagged) : (s.after p env event).Flagged := by
  cases s with
  | absent =>
    cases event with
    | create config sized =>
      cases hv : config.validate with
      | error e => simp [State.after, hv, State.Flagged]
      | ok u =>
        rw [State.after_create p env sized hv]
        exact create_flagged p hv
    | _ => trivial
  | closed d =>
    cases event with
    | reopen => exact openDatabase_flagged p hs
    | _ => trivial
  | opened h =>
    cases event with
    | call op => exact op.run_flagged p hf hs hfl
    | crash => trivial
    | close => trivial
    | _ => exact hfl

theorem reachable_flagged {h : Handle} (hr : (runs p TransactionsSucceed).Reachable (.opened h)) :
    HandleSound False h ∧ h.Flagged := by
  refine hr.invariant (P := fun s => s.Sound False ∧ s.Flagged) ?_ ?_
  · rintro _ rfl
    exact ⟨trivial, trivial⟩
  · rintro s _ ⟨hs, hfl⟩ ⟨event, env, hf, rfl⟩
    exact ⟨State.after_sound p env hs event fun _ _ _ h => h.elim,
      State.after_flagged p event hf hs hfl⟩

end Runs

end VectorDb.Db
