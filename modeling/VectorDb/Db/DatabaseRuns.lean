import VectorDb.Db.Compaction
import VectorDb.Index.HnswLoad
import VectorDb.Lib.Transition
import VectorDb.Storage.MetadataFrame
import VectorDb.Storage.MetadataView

/-!
The runs of a database over processes that end well or crash: which calls are made,
which accesses fail, and what every state reached has in common.
-/
set_option autoImplicit false

namespace VectorDb.Db

open VectorDb.Lib VectorDb.Storage VectorDb.Index Throwing

/-- No access fails, neither SQLite's nor to a file. -/
def Environment.Quiet (env : Environment) : Prop := env.sql.Quiet ∧ ∀ n, env.file n = .done

/-- Only misuse of a statement that is stuck fails. -/
def Environment.OnlyMisuse (env : Environment) : Prop :=
  env.sql.OnlyMisuse ∧ ∀ n, env.file n = .done

/-- What a process leaves behind. -/
structure Disk where
  files : Files
  tables : Tables

def Directory.disk (d : Directory) : Disk := ⟨d.files, d.metadata.connection.committed⟩

/-- The directory as the next process finds it. -/
def Disk.directory (d : Disk) : Directory := ⟨d.files, .fresh d.tables⟩

/-- What `std::size_t` fields hold. -/
def DatabaseConfig.Sized (c : DatabaseConfig) : Prop :=
  c.hnsw.m < 18446744073709551616 ∧ c.hnsw.efConstruction < 18446744073709551616 ∧
    c.hnsw.efSearch < 18446744073709551616

/-- The calls of a handle. -/
inductive Operation where
  | insert (id : VectorId) (vector : FloatVector) (metadata : Metadata)
  | insertAuto (vector : FloatVector) (metadata : Metadata)
  | upsert (id : VectorId) (vector : FloatVector) (metadata : Metadata)
  | remove (id : VectorId)
  | setMetadata (id : VectorId) (metadata : Metadata)
  | getVector (id : VectorId)
  | search (query : FloatVector) (options : QueryOptions)
  | stats
  | rebuildIndex
  | compact
  | flush

inductive Event where
  | create (config : DatabaseConfig) (sized : config.Sized)
  | call (op : Operation)
  | crash
  | close
  | reopen

inductive State where
  | absent
  | closed (disk : Disk)
  | opened (handle : Handle)

/-- The directory that `create` makes. -/
def newDirectory : Directory := ⟨⟨none, none, false, 0⟩, .fresh ⟨∅, ∅⟩⟩

section Steps
variable {K : Type} [BEq K] [LT K] [DecidableLT K] (p : Platform K) (env : Environment)

def Operation.run : Operation → Call Unit
  | .insert id v m => Db.insert p env id v m
  | .insertAuto v m => do let _ ← Db.insertAuto p env v m
  | .upsert id v m => Db.upsert p env id v m
  | .remove id => do let _ ← Db.remove env id
  | .setMetadata id m => Db.setMetadata env id m
  | .getVector id => do let _ ← Db.getVector env id
  | .search q o => do let _ ← Db.search p env q o
  | .stats => do let _ ← Db.stats env
  | .rebuildIndex => Db.rebuildIndex p env
  | .compact => do let _ ← Db.compact p env
  | .flush => Db.flush env

theorem Operation.run_insertAuto (h : Handle) (v : FloatVector) (m : Metadata) :
    exec (Operation.run p env (.insertAuto v m)) h =
      exec (Db.insert p env h.db.nextAutoId v m) h := by
  simp only [Operation.run, Db.insertAuto, exec_bind, exec_get]
  rcases exec (Db.insert p env h.db.nextAutoId v m) h with ⟨r, g⟩
  cases r <;> rfl

/-- Where `create` and `open` lead. -/
def State.ofCall : Except Error Database × Directory → State
  | (.ok db, d) => .opened ⟨d, db⟩
  | (.error _, d) => .closed d.disk

/-- One event. A process that dies within a call is one whose accesses all fail
from some point on, and which then crashes. -/
def State.after : Event → State → State
  | .create config _, .absent =>
    match config.validate with
    | .ok _ => .ofCall (exec (create p env config) newDirectory)
    | .error _ => .absent
  | .call op, .opened h => .opened (exec (op.run p env) h).2
  | .crash, .opened h => .closed h.disk
  | .close, .opened h => .closed (exec (destroy env) h).2.disk
  | .reopen, .closed d => .ofCall (exec (openDatabase p env) d.directory)
  | _, s => s

theorem State.after_create {config : DatabaseConfig} (sized : config.Sized)
    (hv : config.validate = .ok ()) : State.after p env (.create config sized) .absent =
      .ofCall (exec (Db.create p env config) newDirectory) := by
  simp only [State.after, hv]

theorem State.after_call (op : Operation) (h : Handle) :
    State.after p env (.call op) (.opened h) = .opened (exec (op.run p env) h).2 := rfl

theorem State.after_reopen (d : Disk) :
    State.after p env .reopen (.closed d) = .ofCall (exec (openDatabase p env) d.directory) := rfl

/-- Some events, one after the other. -/
def State.afterAll : List (Event × Environment) → State → State
  | [], s => s
  | (event, env) :: steps, s => State.afterAll steps (s.after p env event)

def State.handle? : State → Option Handle
  | .opened h => some h
  | _ => none

/-- The runs all of whose events are allowed in the state they happen in. -/
def runs (allowed : Event → Environment → State → Prop) : Transition State where
  start s := s = .absent
  step s t := ∃ event env, allowed event env s ∧ t = s.after p env event

theorem reachable_afterAll {allowed : Event → Environment → State → Prop}
    {steps : List (Event × Environment)} (hallowed : ∀ e ∈ steps, ∀ s, allowed e.1 e.2 s) {s : State}
    (hr : (runs p allowed).Reachable s) : (runs p allowed).Reachable (s.afterAll p steps) := by
  induction steps generalizing s with
  | nil => exact hr
  | cons step steps ih =>
    exact ih (fun e he => hallowed e (by simp [he]))
      (hr.step ⟨step.1, step.2, hallowed step (by simp) s, rfl⟩)

/-- A handle of which a test of its state holds. -/
theorem State.exists_handle {s : State} {test : Handle → Bool}
    (htest : s.handle?.map test = some true) : ∃ h, s = .opened h ∧ test h = true := by
  cases s with
  | opened h => exact ⟨h, rfl, Option.some.inj htest⟩
  | _ => cases htest

/-- A state of a run of these events. -/
theorem exists_reachable (allowed : Event → Environment → State → Prop)
    {steps : List (Event × Environment)} (hallowed : ∀ e ∈ steps, ∀ s, allowed e.1 e.2 s)
    {test : Handle → Bool} (htest : (State.afterAll p steps .absent).handle?.map test = some true) :
    ∃ h, (runs p allowed).Reachable (.opened h) ∧ test h = true := by
  obtain ⟨h, hs, ht⟩ := State.exists_handle htest
  exact ⟨h, hs ▸ reachable_afterAll p hallowed (.start rfl), ht⟩

end Steps

end VectorDb.Db
