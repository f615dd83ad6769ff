import VectorDb.Lib.Throwing
import VectorDb.Storage.Metadata

/-!
The connection to metadata.sqlite, as src/storage/sqlite.cpp uses it: committed
tables, at most one open transaction, and calls any of which may fail. A statement
whose step failed is left without a reset.
-/
set_option autoImplicit false

namespace VectorDb.Storage

open VectorDb.Lib

/-- The rows of the metadata table, grouped by `vector_id`. No group is empty. -/
abbrev MetadataTable :=
  Std.ExtTreeMap VectorId (Std.ExtTreeMap Text Row compare) compare

structure Tables where
  metadata : MetadataTable
  schemaInfo : Std.ExtTreeMap String String compare

/-- The rows with this `vector_id`, in key order. -/
def Tables.rows (t : Tables) (id : VectorId) : Std.ExtTreeMap Text Row compare :=
  t.metadata.getD id ∅

/-- `INSERT OR REPLACE INTO metadata`. -/
def Tables.insertValue (t : Tables) (id : VectorId) (key : Text) (row : Row) : Tables :=
  { t with metadata := t.metadata.insert id ((t.rows id).insert key row) }

/-- `DELETE FROM metadata WHERE vector_id = ?`. -/
def Tables.deleteByVector (t : Tables) (id : VectorId) : Tables :=
  { t with metadata := t.metadata.erase id }

/-- `DELETE FROM metadata WHERE vector_id = ? AND key = ?`. -/
def Tables.deleteKey (t : Tables) (id : VectorId) (key : Text) : Tables :=
  if (t.rows id).erase key = ∅ then t.deleteByVector id
  else { t with metadata := t.metadata.insert id ((t.rows id).erase key) }

/-- `INSERT OR REPLACE INTO schema_info`. -/
def Tables.setConfigValue (t : Tables) (key value : String) : Tables :=
  { t with schemaInfo := t.schemaInfo.insert key value }

/-- `INSERT OR IGNORE INTO schema_info` of the schema's version. -/
def Tables.withSchemaVersion (t : Tables) : Tables :=
  if t.schemaInfo.contains "schema_version" then t else t.setConfigValue "schema_version" "1"

section Tables
variable (t : Tables) (id : VectorId) (key : Text) (row : Row)

theorem Tables.rows_insertValue (i : VectorId) :
    (t.insertValue id key row).rows i =
      if i = id then (t.rows id).insert key row else t.rows i := by
  simp only [rows, insertValue, Std.ExtTreeMap.getD_insert, compare_eq_iff_eq]
  by_cases h : i = id
  · simp [h]
  · simp [h, Ne.symm h]

theorem Tables.rows_deleteByVector (i : VectorId) :
    (t.deleteByVector id).rows i = if i = id then ∅ else t.rows i := by
  simp only [rows, deleteByVector, Std.ExtTreeMap.getD_erase, compare_eq_iff_eq]
  by_cases h : i = id
  · simp [h]
  · simp [h, Ne.symm h]

theorem Tables.rows_deleteKey (i : VectorId) :
    (t.deleteKey id key).rows i = if i = id then (t.rows id).erase key else t.rows i := by
  unfold deleteKey
  split
  next h => rw [rows_deleteByVector, h]
  next h =>
    simp only [rows, Std.ExtTreeMap.getD_insert, compare_eq_iff_eq]
    by_cases hi : i = id
    · simp [hi]
    · simp [hi, Ne.symm hi]

@[simp] theorem Tables.rows_setConfigValue (k v : String) (i : VectorId) :
    (t.setConfigValue k v).rows i = t.rows i := rfl

@[simp] theorem Tables.insertValue_schemaInfo :
    (t.insertValue id key row).schemaInfo = t.schemaInfo := rfl

@[simp] theorem Tables.deleteByVector_schemaInfo :
    (t.deleteByVector id).schemaInfo = t.schemaInfo := rfl

end Tables

/-- The statements that are prepared once and shared by all calls. -/
inductive Prepared where
  | insertValue | selectByVector | deleteByVector | deleteKey | setConfigValue | getConfigValue
  deriving DecidableEq, Repr

/-- The kinds of call the code makes to SQLite. `stuck` says of a bind that the last
step of the statement failed, and that nothing has reset it since. -/
inductive SqlCall where
  | statement | bind (stuck : Bool) | begin | commit | rollback
  deriving DecidableEq, Repr

/-- Which of SQLite's calls fail, counted from the first one of a run, and with
what text. -/
abbrev Faults := Nat → SqlCall → Option String

/-- No call fails, not even as misuse. -/
def Faults.Quiet (faults : Faults) : Prop := ∀ n call, faults n call = none

/-- No step fails, nor a bind of a statement that is `stuck` or not. -/
def Faults.Answers (faults : Faults) (stuck : Bool) : Prop :=
  ∀ n, faults n (.bind stuck) = none ∧ faults n .statement = none

/-- Only misuse fails: SQLite refuses to bind a statement that is stuck. -/
structure Faults.OnlyMisuse (faults : Faults) : Prop where
  refuses : ∀ n, ∃ detail, faults n (.bind true) = some detail
  others : ∀ n call, call ≠ .bind true → faults n call = none

/-- `pending` is what an open transaction sees. `stuck` marks the shared statements
whose last step failed: only a step that succeeded is followed by a reset. -/
structure Connection where
  committed : Tables
  pending : Option Tables
  clock : Nat
  stuck : Prepared → Bool

/-- What a statement on this connection reads. -/
def Connection.view (c : Connection) : Tables := c.pending.getD c.committed

/-- What a statement writes goes to the open transaction, or is committed at
once where there is none. -/
def Connection.write (c : Connection) (t : Tables) : Connection :=
  match c.pending with
  | none => { c with committed := t }
  | some _ => { c with pending := some t }

abbrev Sql := Throwing Error Connection

/-- Count one call to SQLite and let it fail if it is to. -/
def sqlCall (faults : Faults) (call : SqlCall) (message : String → String) : Sql Unit := do
  let c ← get
  set { c with clock := c.clock + 1 }
  match faults c.clock call with
  | some detail => throw (.metadata (message detail))
  | none => pure ()

/-- The connection after one more call that changed nothing. -/
def Connection.tick (c : Connection) : Connection := { c with clock := c.clock + 1 }

/-- The binds of a shared statement; a statement of one call has no earlier step. -/
def sqlBind (faults : Faults) : Option Prepared → Sql Unit
  | none => pure ()
  | some s => do
    let c ← get
    match faults c.clock (.bind (c.stuck s)) with
    | some detail => do
      set c.tick
      throw (.metadata detail)
    | none => pure ()

/-- A statement after a step that failed. -/
def Connection.leave (c : Connection) : Option Prepared → Connection
  | none => c
  | some s => { c with stuck := Function.update c.stuck s true }

/-- `Statement::step`, as often as there are rows. -/
def sqlStep (faults : Faults) (statement : Option Prepared) : Sql Unit := do
  let c ← get
  match faults c.clock .statement with
  | some detail => do
    set (c.tick.leave statement)
    throw (.metadata detail)
  | none => set c.tick

def bindAndStep (faults : Faults) (statement : Option Prepared) : Sql Unit := do
  sqlBind faults statement
  sqlStep faults statement

/-- One statement that writes, from its first bind to its reset. -/
def runStatement (faults : Faults) (statement : Option Prepared) (write : Tables → Tables) :
    Sql Unit := do
  bindAndStep faults statement
  modify fun c => c.write (write c.view)

/-- One statement that reads. -/
def queryStatement {α : Type} (faults : Faults) (statement : Option Prepared)
    (read : Tables → α) : Sql α := do
  bindAndStep faults statement
  let c ← get
  return read c.view

/-- `execute("BEGIN IMMEDIATE")`. -/
def executeBegin (faults : Faults) : Sql Unit := do
  sqlCall faults .begin ("SQL failed: " ++ ·)
  let c ← get
  match c.pending with
  | some _ => throw (.metadata "SQL failed: cannot start a transaction within a transaction")
  | none => set { c with pending := some c.committed }

/-- `execute("COMMIT")`. A commit that fails leaves the transaction open. -/
def executeCommit (faults : Faults) : Sql Unit := do
  sqlCall faults .commit ("SQL failed: " ++ ·)
  let c ← get
  match c.pending with
  | some t => set { c with committed := t, pending := none }
  | none => throw (.metadata "SQL failed: cannot commit - no transaction is active")

/-- `execute("ROLLBACK")`. -/
def executeRollback (faults : Faults) : Sql Unit := do
  sqlCall faults .rollback ("SQL failed: " ++ ·)
  let c ← get
  match c.pending with
  | some _ => set { c with pending := none }
  | none => throw (.metadata "SQL failed: cannot rollback - no transaction is active")

/-- How a statement fails, at its binds or at its step. -/
def Connection.failure (c : Connection) (faults : Faults) : Option Prepared → Option String
  | none => faults c.clock .statement
  | some s => (faults c.clock (.bind (c.stuck s))).or (faults c.clock .statement)

/-- What a statement that failed leaves: it is stuck if it was its step that failed. -/
def Connection.failed (c : Connection) (faults : Faults) (statement : Option Prepared) : Connection :=
  { c.tick with
    stuck := match statement with
      | none => c.stuck
      | some s => if faults c.clock (.bind (c.stuck s)) = none then
          Function.update c.stuck s true else c.stuck }

section Exec
open Throwing
variable (faults : Faults) (c : Connection)

theorem exec_sqlCall (call : SqlCall) (message : String → String) :
    exec (sqlCall faults call message) c =
      match faults c.clock call with
      | some detail => (.error (.metadata (message detail)), c.tick)
      | none => (.ok (), c.tick) := by
  simp only [sqlCall, exec_bind, exec_get, exec_set, Connection.tick]
  cases faults c.clock call <;> rfl

variable (statement : Option Prepared)

theorem exec_bindAndStep :
    exec (bindAndStep faults statement) c =
      match c.failure faults statement with
      | some detail => (.error (.metadata detail), c.failed faults statement)
      | none => (.ok (), c.tick) := by
  have hstep : exec (sqlStep faults statement) c =
      match faults c.clock .statement with
      | some detail => (.error (.metadata detail), c.tick.leave statement)
      | none => (.ok (), c.tick) := by
    simp only [sqlStep, exec_bind, exec_get]
    cases faults c.clock .statement <;> rfl
  unfold bindAndStep Connection.failure Connection.failed
  cases statement with
  | none =>
    simp only [sqlBind, exec_bind, exec_pure, hstep]
    cases faults c.clock .statement <;> rfl
  | some s =>
    simp only [sqlBind, exec_bind, exec_get]
    cases faults c.clock (.bind (c.stuck s)) with
    | some detail => rfl
    | none =>
      simp only [exec_pure, hstep]
      cases faults c.clock .statement <;> rfl

theorem exec_runStatement (write : Tables → Tables) :
    exec (runStatement faults statement write) c =
      match c.failure faults statement with
      | some detail => (.error (.metadata detail), c.failed faults statement)
      | none => (.ok (), c.tick.write (write c.view)) := by
  rw [runStatement, exec_bind, exec_bindAndStep]
  cases c.failure faults statement <;> rfl

theorem exec_queryStatement {α : Type} (read : Tables → α) :
    exec (queryStatement faults statement read) c =
      match c.failure faults statement with
      | some detail => (.error (.metadata detail), c.failed faults statement)
      | none => (.ok (read c.view), c.tick) := by
  rw [queryStatement, exec_bind, exec_bindAndStep]
  cases c.failure faults statement <;> rfl

variable {faults c}

theorem exec_executeBegin (hf : faults c.clock .begin = none) (hp : c.pending = none) :
    exec (executeBegin faults) c = (.ok (), { c.tick with pending := some c.committed }) := by
  simp [executeBegin, exec_bind, exec_sqlCall, hf, Connection.tick, hp]

theorem exec_executeCommit {t : Tables} (hf : faults c.clock .commit = none)
    (hp : c.pending = some t) :
    exec (executeCommit faults) c = (.ok (), { c.tick with committed := t, pending := none }) := by
  simp [executeCommit, exec_bind, exec_sqlCall, hf, Connection.tick, hp]

theorem exec_executeRollback {t : Tables} (hf : faults c.clock .rollback = none)
    (hp : c.pending = some t) :
    exec (executeRollback faults) c = (.ok (), { c.tick with pending := none }) := by
  simp [executeRollback, exec_bind, exec_sqlCall, hf, Connection.tick, hp]

end Exec

@[simp] theorem Connection.tick_committed (c : Connection) : c.tick.committed = c.committed := rfl

@[simp] theorem Connection.tick_pending (c : Connection) : c.tick.pending = c.pending := rfl

@[simp] theorem Connection.tick_view (c : Connection) : c.tick.view = c.view := rfl

section Failed
variable (c : Connection) (faults : Faults) (statement : Option Prepared)

@[simp] theorem Connection.failed_committed : (c.failed faults statement).committed = c.committed :=
  rfl

@[simp] theorem Connection.failed_pending : (c.failed faults statement).pending = c.pending := rfl

@[simp] theorem Connection.failed_view : (c.failed faults statement).view = c.view := rfl

variable {faults}

theorem Faults.Quiet.failure (hq : faults.Quiet) : c.failure faults statement = none := by
  cases statement <;> simp [Connection.failure, hq _ _]

variable {c statement} in
theorem Faults.not_quiet_of_failure {detail : String}
    (hf : c.failure faults statement = some detail) : ¬ faults.Quiet := by
  intro hq
  rw [hq.failure c statement] at hf
  cases hf

theorem Faults.Quiet.answers (hq : faults.Quiet) (stuck : Bool) : faults.Answers stuck :=
  fun n => ⟨hq n _, hq n _⟩

theorem Faults.OnlyMisuse.answers (hm : faults.OnlyMisuse) : faults.Answers false :=
  fun n => ⟨hm.others n _ (by simp), hm.others n _ (by simp)⟩

theorem Faults.Answers.failure {s : Prepared} (ha : faults.Answers (c.stuck s)) :
    c.failure faults (some s) = none := by
  simp [Connection.failure, ha c.clock]

theorem Faults.OnlyMisuse.failure_stuck (hm : faults.OnlyMisuse) {s : Prepared}
    (hs : c.stuck s = true) : ∃ detail, c.failure faults (some s) = some detail := by
  obtain ⟨detail, hd⟩ := hm.refuses c.clock
  exact ⟨detail, by simp [Connection.failure, hs, hd]⟩

end Failed

@[simp] theorem Connection.write_pending_isSome (c : Connection) (t : Tables) :
    (c.write t).pending.isSome = c.pending.isSome := by
  unfold write
  cases c.pending <;> simp_all

end VectorDb.Storage
