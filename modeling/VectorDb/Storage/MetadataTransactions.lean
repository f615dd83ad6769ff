import VectorDb.Lib.Transition
import VectorDb.Storage.MetadataStore

/-!
The transaction bookkeeping of the metadata store over whole runs: the depth
counter, the `sql::Transaction` object and SQLite's own open transaction move
together as long as SQLite's transaction calls succeed.
-/
set_option autoImplicit false

namespace VectorDb.Storage

open VectorDb.Lib Throwing

/-- No `BEGIN IMMEDIATE`, `COMMIT` or `ROLLBACK` fails; any other statement may. -/
def TransactionCallsSucceed (faults : Faults) : Prop :=
  ∀ n, faults n .begin = none ∧ faults n .commit = none ∧ faults n .rollback = none

namespace MetadataStore

/-- The object is held and SQLite's transaction open exactly inside a `begin`. -/
structure Paired (s : MetadataStore) : Prop where
  held : s.transaction = decide (0 < s.depth)
  opened : s.connection.pending.isSome = decide (0 < s.depth)

/-- No transaction in any of the three places. -/
structure Closed (s : MetadataStore) : Prop where
  depth : s.depth = 0
  transaction : s.transaction = false
  pending : s.connection.pending = none

theorem closed_iff {s : MetadataStore} : s.Closed ↔ s.Paired ∧ s.depth = 0 := by
  constructor
  · intro h
    exact ⟨⟨by simp [h.depth, h.transaction], by simp [h.depth, h.pending]⟩, h.depth⟩
  · rintro ⟨⟨hh, ho⟩, hd⟩
    exact ⟨hd, by simpa [hd] using hh, by simpa [hd] using ho⟩

/-- In step, at depth `d` or thrown back to depth 0. -/
def Keeps (d : Nat) (s : MetadataStore) : Prop := s.Paired ∧ (s.depth = d ∨ s.depth = 0)

theorem keeps_zero_iff {s : MetadataStore} : Keeps 0 s ↔ s.Closed := by
  simp [Keeps, closed_iff]

theorem Closed.keeps {s : MetadataStore} (h : s.Closed) (d : Nat) : Keeps d s :=
  ⟨(closed_iff.mp h).1, .inr h.depth⟩

/-- However the call ends, it ends at the depth it began at or with everything
rolled back. -/
def Settles {α : Type} (x : Call α) : Prop :=
  ∀ d, Triple (Keeps d) x (fun _ => Keeps d) (fun _ => Keeps d)

section Settles
variable {α β : Type}

theorem Settles.pure (a : α) : Settles (Pure.pure a : Call α) :=
  fun _ => Triple.pure (fun _ h => h)

theorem Settles.throw (e : Error) : Settles (MonadExcept.throw e : Call α) :=
  fun _ => Triple.throw (fun _ h => h)

theorem Settles.bind {x : Call α} {f : α → Call β} (hx : Settles x) (hf : ∀ a, Settles (f a)) :
    Settles (x >>= f) :=
  fun d => Triple.bind (hx d) (fun a => hf a d)

theorem Settles.attempt {x : Call α} (hx : Settles x) : Settles (Throwing.attempt x) :=
  fun d => Triple.attempt (hx d)

theorem Settles.forM {l : List α} {f : α → Call PUnit} (hf : ∀ a, Settles (f a)) :
    Settles (l.forM f) :=
  fun d => Triple.forM (H := fun (_ : Unit) => Keeps d) (fun b _ => b) (fun _ a => hf a d) ()

/-- A call that opens and closes no transaction. -/
theorem Settles.sql {x : Sql α}
    (h : ∀ c, (exec x c).2.pending.isSome = c.pending.isSome) : Settles (sql x) := by
  intro d s hs
  have hk : Keeps d (exec (MetadataStore.sql x) s).2 := by
    obtain ⟨⟨hh, ho⟩, hd⟩ := hs
    exact ⟨⟨hh, (h s.connection).trans ho⟩, hd⟩
  cases hr : exec (MetadataStore.sql x) s with
  | mk r t =>
    rw [hr] at hk
    cases r <;> exact hk

variable (faults : Faults)

theorem settles_runStatement {statement : Option Prepared} (write : Tables → Tables) :
    Settles (MetadataStore.sql (runStatement faults statement write)) := by
  apply Settles.sql
  intro c
  rw [exec_runStatement]
  cases c.failure faults statement <;> simp

theorem settles_queryStatement {statement : Option Prepared} (read : Tables → α) :
    Settles (MetadataStore.sql (queryStatement faults statement read)) := by
  apply Settles.sql
  intro c
  rw [exec_queryStatement]
  cases c.failure faults statement <;> simp

end Settles

section Begin
variable {faults : Faults}

theorem beginLocked_nested {s : MetadataStore} (hd : 0 < s.depth) :
    exec (beginLocked faults) s = (.ok (), { s with depth := s.depth + 1 }) := by
  have : s.depth ≠ 0 := by omega
  simp [beginLocked, exec_bind, this]

theorem commitLocked_nested {s : MetadataStore} (hd : 1 < s.depth) :
    exec (commitLocked faults) s = (.ok (), { s with depth := s.depth - 1 }) := by
  have h0 : s.depth ≠ 0 := by omega
  have h1 : s.depth - 1 ≠ 0 := by omega
  simp [commitLocked, exec_bind, h0, h1]

theorem commitLocked_closed {s : MetadataStore} (hs : s.Closed) :
    exec (commitLocked faults) s = (.ok (), s) := by
  simp [commitLocked, exec_bind, hs.depth]

variable (hf : TransactionCallsSucceed faults)
include hf

theorem beginLocked_closed {s : MetadataStore} (hs : s.Closed) :
    exec (beginLocked faults) s =
      (.ok (), ⟨{ s.connection.tick with pending := some s.connection.committed }, 1, true⟩) := by
  simp [beginLocked, sql, exec_bind, hs.depth, hs.transaction,
    exec_executeBegin (hf s.connection.clock).1 hs.pending]

theorem commitLocked_outer {s : MetadataStore} {t : Tables} (hd : s.depth = 1)
    (ht : s.transaction = true) (hp : s.connection.pending = some t) :
    exec (commitLocked faults) s =
      (.ok (), ⟨{ s.connection.tick with committed := t, pending := none }, 0, false⟩) := by
  simp [commitLocked, sql, exec_bind, hd, ht,
    exec_executeCommit (hf s.connection.clock).2.1 hp]

/-- A rollback keeps what is committed and closes everything. -/
theorem rollbackLocked_paired {s : MetadataStore} (hs : s.Paired) :
    ∃ t, exec (rollbackLocked faults) s = (.ok (), t) ∧ t.Closed ∧
      t.connection.committed = s.connection.committed := by
  have hh := hs.held
  have ho := hs.opened
  by_cases hd : s.depth = 0
  · obtain ⟨h0, ht, hp⟩ := closed_iff.mpr ⟨hs, hd⟩
    refine ⟨{ s with depth := 0, transaction := false }, ?_, ⟨rfl, rfl, hp⟩, rfl⟩
    simp [rollbackLocked, exec_bind, ht]
  · have hpos : 0 < s.depth := by omega
    obtain ⟨t, hp⟩ := Option.isSome_iff_exists.mp (by simpa [hpos] using ho)
    refine ⟨⟨{ s.connection.tick with pending := none }, 0, false⟩, ?_, ⟨rfl, rfl, rfl⟩, rfl⟩
    simp [rollbackLocked, destroyTransaction, sql, exec_bind, exec_tryCatch, hh, hpos,
      exec_executeRollback (hf s.connection.clock).2.2 hp]

theorem beginLocked_deeper (d : Nat) :
    Triple (fun s => s.Paired ∧ s.depth = d) (beginLocked faults)
      (fun _ s => s.Paired ∧ s.depth = d + 1) (fun _ _ => False) := by
  rintro s ⟨hs, rfl⟩
  by_cases hd : s.depth = 0
  · rw [beginLocked_closed hf (closed_iff.mpr ⟨hs, hd⟩)]
    exact ⟨⟨rfl, rfl⟩, by simp [hd]⟩
  · rw [beginLocked_nested (by omega)]
    have hpos : 0 < s.depth := by omega
    exact ⟨⟨by simpa [hpos] using hs.held, by simpa [hpos] using hs.opened⟩, rfl⟩

theorem commitLocked_keeps (d : Nat) :
    Triple (Keeps (d + 1)) (commitLocked faults) (fun _ => Keeps d) (fun _ _ => False) := by
  rintro s ⟨hs, hd | hd⟩
  · cases d with
    | zero =>
      have ho := hs.opened
      obtain ⟨t, hp⟩ := Option.isSome_iff_exists.mp (by simpa [hd] using ho)
      rw [commitLocked_outer hf hd (by simp [hs.held, hd]) hp]
      exact keeps_zero_iff.mpr ⟨rfl, rfl, rfl⟩
    | succ d =>
      rw [commitLocked_nested (by omega)]
      exact ⟨⟨by simpa [hd] using hs.held, by simpa [hd] using hs.opened⟩, .inl (by simp [hd])⟩
  · have hc := closed_iff.mpr ⟨hs, hd⟩
    rw [commitLocked_closed hc]
    exact hc.keeps d

/-- The rollback of a handler, and its rethrow. -/
theorem rollback_rethrow_keeps (d : Nat) (e : Error) :
    Triple (Keeps d) (do rollbackLocked faults; throw e : Call Unit) (fun _ _ => False)
      (fun _ => Keeps 0) := by
  rintro s ⟨hs, -⟩
  obtain ⟨t, ht, hc, -⟩ := rollbackLocked_paired hf hs
  rw [exec_bind_ok ht]
  exact keeps_zero_iff.mpr hc

theorem settles_locked {body : Call Unit} (hb : Settles body) : Settles (locked faults body) := by
  have hbody : ∀ d, Triple (fun s => s.Paired ∧ s.depth = d) (locked faults body)
      (fun _ => Keeps d) (fun _ => Keeps d) := by
    intro d
    refine Triple.bind ((beginLocked_deeper hf d).conseq (fun _ h => h) (fun _ _ h => h)
      (fun _ _ h => h.elim)) fun _ => ?_
    refine Triple.bind (Q := fun _ => Keeps (d + 1)) ?_ fun _ => ?_
    · refine Triple.tryCatch ((hb (d + 1)).conseq (fun s h => ⟨h.1, .inl h.2⟩) (fun _ _ h => h)
        (fun _ _ h => h)) fun e => ?_
      exact (rollback_rethrow_keeps hf (d + 1) e).conseq (fun _ h => h) (fun _ _ h => h.elim)
        (fun _ _ h => (keeps_zero_iff.mp h).keeps d)
    · exact (commitLocked_keeps hf d).conseq (fun _ h => h) (fun _ _ h => h)
        (fun _ _ h => h.elim)
  rintro d s ⟨hs, hd | hd⟩
  · exact hbody d s ⟨hs, hd⟩
  · exact (hbody 0).conseq (fun _ h => h) (fun _ _ h => (keeps_zero_iff.mp h).keeps d)
      (fun _ _ h => (keeps_zero_iff.mp h).keeps d) s ⟨hs, hd⟩

end Begin

section Writes
variable {faults : Faults} {c₀ : Tables}

/-- Inside the one transaction of a call that began with nothing open. -/
structure Within (c₀ : Tables) (R : Tables → Prop) (s : MetadataStore) : Prop where
  depth : s.depth = 1
  transaction : s.transaction = true
  committed : s.connection.committed = c₀
  pending : ∃ t, s.connection.pending = some t ∧ R t

theorem Within.paired {R : Tables → Prop} {s : MetadataStore} (h : Within c₀ R s) : s.Paired := by
  obtain ⟨t, ht, -⟩ := h.pending
  exact ⟨by simp [h.transaction, h.depth], by simp [ht, h.depth]⟩

/-- A body whose statement failed. -/
def BrokenOff (faults : Faults) (c₀ : Tables) (s : MetadataStore) : Prop :=
  Within c₀ (fun _ => True) s ∧ ¬ faults.Quiet

theorem runStatement_within {statement : Option Prepared} (write : Tables → Tables) (t : Tables) :
    Triple (Within c₀ (· = t)) (sql (runStatement faults statement write))
      (fun _ => Within c₀ (· = write t)) (fun _ => BrokenOff faults c₀) := by
  rintro s ⟨hd, ht, hc, u, hu, rfl⟩
  simp only [sql, exec_on, exec_runStatement]
  cases hf : s.connection.failure faults statement with
  | some detail =>
    exact ⟨⟨hd, ht, hc, u, hu, trivial⟩, Faults.not_quiet_of_failure hf⟩
  | none =>
    refine ⟨hd, ht, ?_, write u, ?_, rfl⟩
    · simp [Connection.write, hu, hc]
    · simp [Connection.write, hu, Connection.view]

/-- A transaction commits what its body wrote, or nothing. -/
theorem locked_commits (hf : TransactionCallsSucceed faults) {body : Call Unit} {t : Tables}
    (hb : Triple (Within c₀ (· = c₀)) body (fun _ => Within c₀ (· = t))
      (fun _ => BrokenOff faults c₀)) :
    Triple (fun s => s.Closed ∧ s.connection.committed = c₀) (locked faults body)
      (fun _ s => s.Closed ∧ s.connection.committed = t)
      (fun _ s => s.Closed ∧ s.connection.committed = c₀) := by
  refine Triple.bind (Q := fun _ => Within c₀ (· = c₀)) ?_ fun _ => ?_
  · rintro s ⟨hs, hc⟩
    rw [beginLocked_closed hf hs]
    exact ⟨rfl, rfl, hc, c₀, by simp [hc], rfl⟩
  refine Triple.bind (Q := fun _ => Within c₀ (· = t)) (Triple.tryCatch hb fun e => ?_) fun _ => ?_
  · intro s hs
    obtain ⟨u, hu, hclosed, hc⟩ := rollbackLocked_paired hf hs.1.paired
    rw [exec_bind_ok hu]
    exact ⟨hclosed, hc.trans hs.1.committed⟩
  · rintro s ⟨hd, ht, hc, u, hu, rfl⟩
    rw [commitLocked_outer hf hd ht hu]
    exact ⟨⟨rfl, rfl, rfl⟩, rfl⟩

end Writes

end MetadataStore

/-- The rows a metadata map is bound to. -/
def boundRows (metadata : Metadata) : Std.ExtTreeMap Text Row compare :=
  metadata.map fun _ value => bindValue value

/-- The tables with the rows of `id` replaced, one statement after the other. -/
def Tables.replaceRows (t : Tables) (id : VectorId) (entries : List (Text × MetadataValue)) :
    Tables :=
  entries.foldl (fun t entry => t.insertValue id entry.1 (bindValue entry.2)) (t.deleteByVector id)

theorem Tables.rows_foldl_insertValue (t : Tables) (id i : VectorId)
    (entries : List (Text × MetadataValue)) :
    (entries.foldl (fun t entry => t.insertValue id entry.1 (bindValue entry.2)) t).rows i =
      if i = id then (t.rows id).insertMany (entries.map fun entry => (entry.1, bindValue entry.2))
      else t.rows i := by
  induction entries generalizing t with
  | nil => by_cases h : i = id <;> simp [h]
  | cons entry entries ih =>
    rw [List.foldl_cons, ih]
    by_cases h : i = id <;> simp [h, rows_insertValue, Std.ExtTreeMap.insertMany_cons]

theorem insertMany_boundRows (metadata : Metadata) :
    (∅ : Std.ExtTreeMap Text Row compare).insertMany
      (metadata.toList.map fun entry => (entry.1, bindValue entry.2)) = boundRows metadata := by
  apply Std.ExtTreeMap.ext_getElem?
  intro key
  have hdistinct : (metadata.toList.map fun entry => (entry.1, bindValue entry.2)).Pairwise
      (fun a b => ¬ compare a.1 b.1 = .eq) :=
    List.pairwise_map.mpr Std.ExtTreeMap.distinct_keys_toList
  cases h : metadata[key]? with
  | some value =>
    have hmem : (key, bindValue value) ∈
        metadata.toList.map fun entry => (entry.1, bindValue entry.2) :=
      List.mem_map.mpr ⟨(key, value), Std.ExtTreeMap.mem_toList_iff_getElem?_eq_some.mpr h, rfl⟩
    rw [Std.ExtTreeMap.getElem?_insertMany_list_of_mem (by simp) hdistinct hmem]
    simp [boundRows, h]
  | none =>
    rw [Std.ExtTreeMap.getElem?_insertMany_list_of_contains_eq_false]
    · simp [boundRows, h]
    · simp [h]

theorem Tables.rows_replaceRows (t : Tables) (id i : VectorId) (metadata : Metadata) :
    (t.replaceRows id metadata.toList).rows i =
      if i = id then boundRows metadata else t.rows i := by
  rw [replaceRows, rows_foldl_insertValue]
  by_cases h : i = id
  · simp [h, rows_deleteByVector, insertMany_boundRows]
  · simp [h, rows_deleteByVector]

/-- What was bound reads back as it is stored. -/
theorem MetadataStore.metadataOf_boundRows (metadata : Metadata) :
    metadataOf (boundRows metadata) = metadata.map fun _ value => value.stored := by
  apply Std.ExtTreeMap.ext_getElem?
  intro key
  cases h : metadata[key]? <;> simp [metadataOf, boundRows, h]

theorem MetadataStore.metadataOf_boundRows_of_kept {metadata : Metadata}
    (h : ∀ (key : Text) (value : MetadataValue), metadata[key]? = some value → value.Kept) :
    metadataOf (boundRows metadata) = metadata := by
  rw [metadataOf_boundRows]
  apply Std.ExtTreeMap.ext_getElem?
  intro key
  cases hk : metadata[key]? with
  | none => simp [hk]
  | some value =>
    have hkept : value.stored = value := h key value hk
    simp [hk, hkept]

namespace MetadataStore

variable {faults : Faults}

theorem replaceRows_within (id : VectorId) (entries : List (Text × MetadataValue)) (c₀ : Tables) :
    Triple (Within c₀ (· = c₀)) (replaceRows faults id entries)
      (fun _ => Within c₀ (· = c₀.replaceRows id entries)) (fun _ => BrokenOff faults c₀) :=
  Triple.bind (runStatement_within (·.deleteByVector id) c₀) fun _ =>
    Triple.forM (H := fun t => Within c₀ (· = t))
      (fun (t : Tables) (entry : Text × MetadataValue) =>
        t.insertValue id entry.1 (bindValue entry.2))
      (fun t entry => runStatement_within
        (·.insertValue id entry.1 (bindValue entry.2)) t) (c₀.deleteByVector id)

/-- A call to `set` with nothing open leaves nothing open, and commits the whole
replacement or nothing. -/
theorem set_closed (hf : TransactionCallsSucceed faults) (id : VectorId) (metadata : Metadata)
    (c₀ : Tables) :
    Triple (fun s => s.Closed ∧ s.connection.committed = c₀) (set faults id metadata)
      (fun _ s => s.Closed ∧ s.connection.committed = c₀.replaceRows id metadata.toList)
      (fun _ s => s.Closed ∧ s.connection.committed = c₀) := by
  exact Triple.bind (checkKeys_keeps _ _) fun _ =>
    locked_commits hf (replaceRows_within id metadata.toList c₀)

/-- What a program outside the store may ask of it. -/
inductive Request where
  | set (id : VectorId) (metadata : Metadata)
  | setKey (id : VectorId) (key : Text) (value : MetadataValue)
  | get (id : VectorId)
  | removeKey (id : VectorId) (key : Text)
  | remove (id : VectorId)
  | vectorCount
  | setConfig (key value : String)
  | getConfig (key : String)
  | orphanedIds (live : Finset VectorId)
  | removeOrphans (live : Finset VectorId)

inductive Reply where
  | done
  | metadata (m : Metadata)
  | flag (b : Bool)
  | count (n : Nat)
  | value (v : Option String)
  | ids (l : List VectorId)

def Request.run (faults : Faults) : Request → Call Reply
  | .set id m => do MetadataStore.set faults id m; return .done
  | .setKey id key value => do MetadataStore.setKey faults id key value; return .done
  | .get id => do return .metadata (← MetadataStore.get faults id)
  | .removeKey id key => do return .flag (← MetadataStore.removeKey faults id key)
  | .remove id => do return .flag (← MetadataStore.remove faults id)
  | .vectorCount => do return .count (← MetadataStore.vectorCount faults)
  | .setConfig key value => do MetadataStore.setConfig faults key value; return .done
  | .getConfig key => do return .value (← MetadataStore.getConfig faults key)
  | .orphanedIds live => do return .ids (← MetadataStore.orphanedIds faults live)
  | .removeOrphans live => do return .count (← MetadataStore.removeOrphans faults live)

/-- Any body of `in_transaction`: it makes requests and opens transactions of
its own, sees what each returned or threw, and goes on, returns or throws. -/
inductive Body where
  | done : Body
  | raise (e : Error) : Body
  | request (r : Request) (next : Except Error Reply → Body) : Body
  | transaction (body : Body) (next : Except Error Unit → Body) : Body

def Body.run (faults : Faults) : Body → Call Unit
  | .done => pure ()
  | .raise e => throw e
  | .request r next => do
    let reply ← attempt (r.run faults)
    (next reply).run faults
  | .transaction body next => do
    let outcome ← attempt (inTransaction faults (body.run faults))
    (next outcome).run faults

theorem settles_checkKeys (keys : List Text) : Settles (checkKeys keys) :=
  fun d => checkKeys_keeps keys (Keeps d)

theorem settles_replaceRows (faults : Faults) (id : VectorId)
    (entries : List (Text × MetadataValue)) : Settles (replaceRows faults id entries) :=
  Settles.bind (settles_runStatement faults _) fun _ =>
    Settles.forM fun _ => settles_runStatement faults _

theorem settles_set (hf : TransactionCallsSucceed faults) (id : VectorId) (metadata : Metadata) :
    Settles (set faults id metadata) :=
  Settles.bind (settles_checkKeys _) fun _ => settles_locked hf (settles_replaceRows faults id _)

theorem settles_setKey (faults : Faults) (id : VectorId) (key : Text) (value : MetadataValue) :
    Settles (setKey faults id key value) :=
  Settles.bind (settles_checkKeys _) fun _ => settles_runStatement faults _

/-- `remove` and `remove_key`: look first, delete what is there. -/
theorem settles_queryThenRun (faults : Faults) (read : Tables → Bool) {statement : Option Prepared}
    (write : Tables → Tables) :
    Settles (do
      let present ← sql (queryStatement faults none read)
      if present then
        sql (runStatement faults statement write)
        return true
      return false) := by
  refine Settles.bind (settles_queryStatement faults read) fun present => ?_
  cases present
  · exact Settles.pure false
  · exact Settles.bind (settles_runStatement faults write) fun _ => Settles.pure true

theorem settles_removeOrphans (hf : TransactionCallsSucceed faults) (live : Finset VectorId) :
    Settles (removeOrphans faults live) := by
  unfold removeOrphans
  refine Settles.bind (settles_queryStatement faults _) fun orphans => ?_
  cases orphans.isEmpty
  · exact Settles.bind (settles_locked hf (Settles.forM fun _ => settles_runStatement faults _))
      fun _ => Settles.pure _
  · exact Settles.pure 0

theorem Request.settles (hf : TransactionCallsSucceed faults) (r : Request) :
    Settles (r.run faults) := by
  cases r with
  | set id m => exact Settles.bind (settles_set hf id m) fun _ => Settles.pure _
  | setKey id key value =>
    exact Settles.bind (settles_setKey faults id key value) fun _ => Settles.pure _
  | get id => exact Settles.bind (settles_queryStatement faults _) fun _ => Settles.pure _
  | removeKey id key =>
    exact Settles.bind (settles_queryThenRun faults _ _) fun _ => Settles.pure _
  | remove id => exact Settles.bind (settles_queryThenRun faults _ _) fun _ => Settles.pure _
  | vectorCount => exact Settles.bind (settles_queryStatement faults _) fun _ => Settles.pure _
  | setConfig key value =>
    exact Settles.bind (settles_runStatement faults _) fun _ => Settles.pure _
  | getConfig key => exact Settles.bind (settles_queryStatement faults _) fun _ => Settles.pure _
  | orphanedIds live =>
    exact Settles.bind (settles_queryStatement faults _) fun _ => Settles.pure _
  | removeOrphans live =>
    exact Settles.bind (settles_removeOrphans hf live) fun _ => Settles.pure _

theorem Body.settles (hf : TransactionCallsSucceed faults) (b : Body) : Settles (b.run faults) := by
  induction b with
  | done => exact Settles.pure ()
  | raise e => exact Settles.throw e
  | request r next ih => exact Settles.bind (r.settles hf).attempt ih
  | transaction body next ihb ihn => exact Settles.bind (settles_locked hf ihb).attempt ihn

/-- The calls made on a store from outside, one after the other. -/
def calls (faults : Faults) : Transition MetadataStore where
  start := Closed
  step s t :=
    (∃ r : Request, t = (exec (r.run faults) s).2) ∨
      ∃ b : Body, t = (exec (inTransaction faults (b.run faults)) s).2

theorem Settles.closed {α : Type} {x : Call α} (hx : Settles x) {s : MetadataStore}
    (hs : s.Closed) : (exec x s).2.Closed := by
  have h := hx 0 s (keeps_zero_iff.mpr hs)
  cases hr : exec x s with
  | mk r t =>
    rw [hr] at h
    cases r with
    | ok a => exact keeps_zero_iff.mp h
    | error e => exact keeps_zero_iff.mp h

/-- A store as its constructor leaves it. -/
def fresh (t : Tables) : MetadataStore := ⟨⟨t, none, 0, fun _ => false⟩, 0, false⟩

end MetadataStore

end VectorDb.Storage
