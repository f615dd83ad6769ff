import VectorDb.Storage.MetadataMatching
import VectorDb.Storage.MetadataTransactions

/-!
The six statements that `MetadataStore::Impl` prepares once, and every public operation
written over their binds, steps and resets. A step may fail; binding a statement that
was stepped and not reset is misuse.
-/
set_option autoImplicit false

namespace VectorDb.Storage

open VectorDb.Lib

/-- `busy` marks the prepared statements that were stepped and not reset. `steps` has
one entry for each step made so far, `none` for a statement local to its operation. -/
structure PreparedStore where
  store : MetadataStore
  busy : Prepared → Bool
  steps : List (Option Prepared)

/-- Which steps fail, counted from the first one of a run, and with what text. -/
abbrev StepFaults := Nat → Option String

/-- One step fails, once. -/
def failsOnce (n : Nat) (detail : String) : StepFaults :=
  fun m => if m = n then some detail else none

def neverFails : StepFaults := fun _ => none

/-- `BEGIN`, `COMMIT` and `ROLLBACK` are executed without a prepared statement. -/
def quiet : Faults := fun _ _ => none

theorem quiet_quiet : quiet.Quiet := fun _ _ => rfl

namespace PreparedStore

abbrev Call (α : Type) := Throwing Error PreparedStore α

/-- A store as its constructor leaves it. -/
def opened (t : Tables) : PreparedStore := ⟨MetadataStore.fresh t, fun _ => false, []⟩

def onStore {α : Type} (x : MetadataStore.Call α) : Call α :=
  Throwing.on store (fun s p => { p with store := s }) x

/-- `Statement::bind_int64` and its like. -/
def bindParameter (statement : Prepared) (operation : String) : Call Unit := do
  let p ← get
  if p.busy statement then
    throw (.metadata (operation ++ " failed: bad parameter or other API misuse " ++
      "(bad parameter or other API misuse) [code 21]"))

def reset (statement : Prepared) : Call Unit :=
  modify fun p => { p with busy := Function.update p.busy statement false }

def write (f : Tables → Tables) : Call Unit :=
  modify fun p => { p with store := { p.store with
    connection := p.store.connection.write (f p.store.connection.view) } }

/-- The store after one more step of this statement. -/
def stepped (p : PreparedStore) (statement : Option Prepared) : PreparedStore :=
  { p with
    busy := match statement with
      | some s => Function.update p.busy s true
      | none => p.busy
    steps := p.steps ++ [statement] }

section Stepped
variable (p : PreparedStore) (statement : Option Prepared)

@[simp] theorem stepped_store : (p.stepped statement).store = p.store := rfl

@[simp] theorem stepped_steps : (p.stepped statement).steps = p.steps ++ [statement] := rfl

@[simp] theorem stepped_busy_none : (p.stepped none).busy = p.busy := rfl

@[simp] theorem stepped_busy_some (s : Prepared) :
    (p.stepped (some s)).busy = Function.update p.busy s true := rfl

end Stepped

variable (faults : StepFaults)

/-- `Statement::step`. -/
def step (statement : Option Prepared) : Call Unit := do
  let p ← get
  set (p.stepped statement)
  match faults p.steps.length with
  | some detail => throw (.metadata ("step failed: " ++ detail))
  | none => pure ()

/-- Bind a prepared statement and `run` it, which resets it after a step that succeeded. -/
def run (statement : Prepared) (operation : String) (f : Tables → Tables) : Call Unit := do
  bindParameter statement operation
  step faults (some statement)
  write f
  reset statement

/-- Step a statement once for each of its rows, and once more where the loop asks for
the row after the last. -/
def stepRows (statement : Option Prepared) (count : Nat) : Call Unit :=
  (List.replicate count ()).forM fun _ => step faults statement

/-- Bind a prepared statement, read its rows and reset it. -/
def query {α : Type} (statement : Prepared) (operation : String) (count : Tables → Nat)
    (read : Tables → α) : Call α := do
  bindParameter statement operation
  let p ← get
  stepRows faults (some statement) (count p.store.connection.view)
  reset statement
  return read p.store.connection.view

/-- The same with a statement prepared for this one query. -/
def queryLocal {α : Type} (count : Tables → Nat) (read : Tables → α) : Call α := do
  let p ← get
  stepRows faults none (count p.store.connection.view)
  return read p.store.connection.view

def beginLocked : Call Unit := onStore (MetadataStore.beginLocked quiet)

def commitLocked : Call Unit := onStore (MetadataStore.commitLocked quiet)

def rollbackLocked : Call Unit := onStore (MetadataStore.rollbackLocked quiet)

def locked (body : Call Unit) : Call Unit := do
  beginLocked
  tryCatch body fun e => do
    rollbackLocked
    throw e
  commitLocked

def checkKeys (keys : List Text) : Call Unit :=
  if keys.any List.isEmpty then throw (.invalidArgument "metadata keys must not be empty")
  else pure ()

def set (id : VectorId) (metadata : Metadata) : Call Unit := do
  checkKeys metadata.keys
  locked do
    run faults .deleteByVector "bind integer" (·.deleteByVector id)
    metadata.toList.forM fun entry =>
      run faults .insertValue "bind integer" (·.insertValue id entry.1 (bindValue entry.2))

def setKey (id : VectorId) (key : Text) (value : MetadataValue) : Call Unit := do
  checkKeys [key]
  run faults .insertValue "bind integer" (·.insertValue id key (bindValue value))

def get (id : VectorId) : Call Metadata :=
  query faults .selectByVector "bind integer" (fun t => (t.rows id).size + 1) fun t =>
    MetadataStore.metadataOf (t.rows id)

def removeKey (id : VectorId) (key : Text) : Call Bool := do
  let present ← queryLocal faults (fun _ => 1) fun t => (t.rows id).contains key
  if present then
    run faults .deleteKey "bind integer" (·.deleteKey id key)
    return true
  return false

def remove (id : VectorId) : Call Bool := do
  let present ← queryLocal faults (fun _ => 1) fun t => decide (0 < (t.rows id).size)
  if present then
    run faults .deleteByVector "bind integer" (·.deleteByVector id)
    return true
  return false

def matching (filter : Filter) : Call (List VectorId) :=
  queryLocal faults (fun t => t.allRows.length + 1) (MetadataStore.matchingIds filter)

def vectorCount : Call Nat := queryLocal faults (fun _ => 1) fun t => t.metadata.size

def rowCount : Call Nat := queryLocal faults (fun _ => 1) fun t => t.allRows.length

def keys : Call (List Text) := queryLocal faults (fun t => t.keysOf.length + 1) Tables.keysOf

def setConfig (key value : String) : Call Unit :=
  run faults .setConfigValue "bind text" (·.setConfigValue key value)

def getConfig (key : String) : Call (Option String) :=
  query faults .getConfigValue "bind text" (fun _ => 1) fun t => t.schemaInfo[key]?

def allConfig : Call (List (String × String)) :=
  queryLocal faults (fun t => t.schemaInfo.size + 1) fun t => t.schemaInfo.toList

def orphanedIds (live : Finset VectorId) : Call (List VectorId) :=
  queryLocal faults (fun t => t.metadata.size + 1) fun t => t.orderedIds.filter (· ∉ live)

def removeOrphans (live : Finset VectorId) : Call Nat := do
  let orphans ← orphanedIds faults live
  if orphans.isEmpty then
    return 0
  locked (orphans.forM fun id => run faults .deleteByVector "bind integer" (·.deleteByVector id))
  return orphans.length

def inTransaction (body : Call Unit) : Call Unit := locked body

end PreparedStore

/-- The public operations of the store that take no body. -/
inductive Operation where
  | set (id : VectorId) (metadata : Metadata)
  | setKey (id : VectorId) (key : Text) (value : MetadataValue)
  | get (id : VectorId)
  | removeKey (id : VectorId) (key : Text)
  | remove (id : VectorId)
  | matching (filter : Filter)
  | vectorCount
  | rowCount
  | keys
  | setConfig (key value : String)
  | getConfig (key : String)
  | allConfig
  | orphanedIds (live : Finset VectorId)
  | removeOrphans (live : Finset VectorId)

inductive Answer where
  | done
  | metadata (m : Metadata)
  | flag (b : Bool)
  | count (n : Nat)
  | value (v : Option String)
  | ids (l : List VectorId)
  | keys (l : List Text)
  | config (l : List (String × String))

def Operation.run (faults : StepFaults) : Operation → PreparedStore.Call Answer
  | .set id m => do PreparedStore.set faults id m; return .done
  | .setKey id key value => do PreparedStore.setKey faults id key value; return .done
  | .get id => do return .metadata (← PreparedStore.get faults id)
  | .removeKey id key => do return .flag (← PreparedStore.removeKey faults id key)
  | .remove id => do return .flag (← PreparedStore.remove faults id)
  | .matching filter => do return .ids (← PreparedStore.matching faults filter)
  | .vectorCount => do return .count (← PreparedStore.vectorCount faults)
  | .rowCount => do return .count (← PreparedStore.rowCount faults)
  | .keys => do return .keys (← PreparedStore.keys faults)
  | .setConfig key value => do PreparedStore.setConfig faults key value; return .done
  | .getConfig key => do return .value (← PreparedStore.getConfig faults key)
  | .allConfig => do return .config (← PreparedStore.allConfig faults)
  | .orphanedIds live => do return .ids (← PreparedStore.orphanedIds faults live)
  | .removeOrphans live => do return .count (← PreparedStore.removeOrphans faults live)

/-- Any body of `in_transaction`: what it calls may depend on what it saw. -/
inductive Program where
  | done : Program
  | raise (e : Error) : Program
  | call (operation : Operation) (next : Except Error Answer → Program) : Program
  | transaction (body : Program) (next : Except Error Unit → Program) : Program

def Program.run (faults : StepFaults) : Program → PreparedStore.Call Unit
  | .done => pure ()
  | .raise e => throw e
  | .call operation next => do
    let answer ← Throwing.attempt (operation.run faults)
    (next answer).run faults
  | .transaction body next => do
    let outcome ← Throwing.attempt (PreparedStore.inTransaction (body.run faults))
    (next outcome).run faults

/-- One call of a public operation from outside. -/
inductive Invocation where
  | operation (operation : Operation)
  | transaction (body : Program)

def Invocation.run (faults : StepFaults) : Invocation → PreparedStore.Call Answer
  | .operation op => op.run faults
  | .transaction body => do PreparedStore.inTransaction (body.run faults); return .done

/-- The calls made on a store from outside, one after the other. -/
def PreparedStore.runAll (faults : StepFaults) (calls : List Invocation) (p : PreparedStore) :
    PreparedStore :=
  calls.foldl (fun p call => (Throwing.exec (call.run faults) p).2) p

end VectorDb.Storage
