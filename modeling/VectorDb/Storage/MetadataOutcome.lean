import VectorDb.Storage.MetadataFrame

/-!
What a call of a store with nothing open has committed, whichever of SQLite's calls
fail: all that it writes if it returns, nothing if it throws.
-/
set_option autoImplicit false

namespace VectorDb.Storage

open VectorDb.Lib Throwing

namespace MetadataStore

variable (faults : Faults) {c t : Tables}

/-- Nothing is open, and `c` is committed. -/
def Holds (c : Tables) (s : MetadataStore) : Prop := s.Closed ∧ s.connection.committed = c

theorem Holds.view {s : MetadataStore} (h : Holds c s) : s.connection.view = c := by
  rw [Connection.view, h.1.pending, Option.getD_none, h.2]

theorem Holds.everywhere {P : Tables → Prop} {s : MetadataStore} (h : Holds c s) (hc : P c) :
    s.Everywhere P := everywhere_of_committed h.1.pending (h.2 ▸ hc)

theorem holds_fresh (t : Tables) : Holds t (fresh t) := ⟨⟨rfl, rfl, rfl⟩, rfl⟩

/-- A call that threw because SQLite did; what it wrote is not committed. -/
def Interrupted (faults : Faults) (c : Tables) (s : MetadataStore) : Prop :=
  s.connection.committed = c ∧ ¬ faults.Quiet

theorem not_quiet {n : Nat} {call : SqlCall} {detail : String}
    (h : faults n call = some detail) : ¬ faults.Quiet := fun hq => by
  rw [hq] at h
  cases h

theorem beginLocked_holds :
    Triple (Holds c) (beginLocked faults) (fun _ => Within c (· = c))
      (fun _ => Interrupted faults c) := by
  rintro s ⟨hs, rfl⟩
  cases hf : faults s.connection.clock .begin with
  | some detail =>
    simp [beginLocked, exec_bind, hs.depth, sql, executeBegin, exec_sqlCall, hf, Interrupted,
      not_quiet faults hf]
  | none =>
    simp only [beginLocked, exec_bind, exec_get, exec_set, hs.depth, sql, exec_on,
      exec_executeBegin hf hs.pending, hs.transaction, if_true, Bool.false_eq_true, if_false]
    exact ⟨rfl, rfl, rfl, _, rfl, rfl⟩

theorem rollbackLocked_committed :
    Maintains (fun s => s.connection.committed = c) (rollbackLocked faults) := by
  rintro s rfl
  cases ht : s.transaction with
  | false => simp [rollbackLocked, exec_bind, ht]
  | true =>
    cases hf : faults s.connection.clock .rollback with
    | some detail =>
      simp [rollbackLocked, destroyTransaction, exec_bind, exec_tryCatch, ht, sql, executeRollback,
        exec_sqlCall, hf]
    | none =>
      cases hp : s.connection.pending <;>
        simp [rollbackLocked, destroyTransaction, exec_bind, exec_tryCatch, ht, sql,
          executeRollback, exec_sqlCall, hf, hp]

theorem commitLocked_within :
    Triple (Within c (· = t)) (commitLocked faults) (fun _ => Holds t)
      (fun _ => Interrupted faults c) := by
  rintro s ⟨hd, ht, hc, u, hu, rfl⟩
  cases hf : faults s.connection.clock .commit with
  | some detail =>
    simp [commitLocked, exec_bind, hd, ht, sql, executeCommit, exec_sqlCall, hf, hc, Interrupted,
      not_quiet faults hf]
  | none =>
    simp only [commitLocked, exec_bind, exec_get, exec_set, hd, sql, exec_on, exec_ite,
      exec_executeCommit hf hu, ht, if_true]
    exact ⟨⟨rfl, rfl, rfl⟩, rfl⟩

/-- A transaction that returns has committed what its body wrote; one that throws
has committed nothing. -/
theorem locked_holds {body : Call Unit}
    (hb : Triple (Within c (· = c)) body (fun _ => Within c (· = t))
      (fun _ => BrokenOff faults c)) :
    Triple (Holds c) (locked faults body) (fun _ => Holds t) (fun _ => Interrupted faults c) := by
  refine Triple.bind (beginLocked_holds faults) fun _ => ?_
  refine Triple.bind (Q := fun _ => Within c (· = t)) (Triple.tryCatch hb fun e => ?_) fun _ =>
    commitLocked_within faults
  rintro s ⟨hs, hq⟩
  exact Triple.bind ((rollbackLocked_committed faults (c := c)).triple.conseq (fun _ h => h)
    (fun _ _ h => ⟨h, hq⟩) fun _ _ h => ⟨h, hq⟩) (fun _ => Triple.throw fun _ h => h) s hs.committed

theorem checkKeys_spec (keys : List Text) :
    Triple (Holds c) (checkKeys keys) (fun _ => Holds c)
      (fun _ s => Holds c s ∧ keys.any List.isEmpty) := by
  unfold checkKeys
  split
  next h => exact Triple.throw fun s hs => ⟨hs, h⟩
  next h => exact Triple.pure fun s hs => hs

theorem exec_set_rejected {metadata : Metadata} (hm : metadata.keys.any List.isEmpty = true)
    (id : VectorId) (s : MetadataStore) : exec (set faults id metadata) s =
      (.error (.invalidArgument "metadata keys must not be empty"), s) := by
  simp [set, checkKeys, hm]

theorem set_holds (id : VectorId) (metadata : Metadata) :
    Triple (Holds c) (set faults id metadata)
      (fun _ => Holds (c.replaceRows id metadata.toList))
      (fun _ s => (Holds c s ∧ metadata.keys.any List.isEmpty) ∨ Interrupted faults c s) := by
  refine Triple.bind ((checkKeys_spec _).conseq (fun _ h => h) (fun _ _ h => h)
    fun _ _ h => .inl h) fun _ => ?_
  exact (locked_holds faults (replaceRows_within id metadata.toList c)).conseq (fun _ h => h)
    (fun _ _ h => h) fun _ _ h => .inr h

theorem runStatement_holds {statement : Option Prepared} (write : Tables → Tables) :
    Triple (Holds c) (sql (runStatement faults statement write)) (fun _ => Holds (write c))
      (fun _ s => Holds c s ∧ ¬ faults.Quiet) := by
  rintro s ⟨⟨hd, ht, hp⟩, rfl⟩
  simp only [sql, exec_on, exec_runStatement]
  cases hf : s.connection.failure faults statement with
  | some detail => exact ⟨⟨⟨hd, ht, hp⟩, rfl⟩, Faults.not_quiet_of_failure hf⟩
  | none =>
    have hw : s.connection.tick.write (write s.connection.view) =
        { s.connection.tick with committed := write s.connection.committed } := by
      simp [Connection.write, Connection.view, hp]
    rw [hw]
    exact ⟨⟨hd, ht, hp⟩, rfl⟩

theorem sqlCall_holds (call : SqlCall) (message : String → String) :
    Triple (Holds c) (sql (sqlCall faults call message)) (fun _ => Holds c)
      (fun _ s => Holds c s ∧ ¬ faults.Quiet) := by
  rintro s ⟨⟨hd, ht, hp⟩, rfl⟩
  simp only [sql, exec_on, exec_sqlCall]
  cases hf : faults s.connection.clock call with
  | some detail => exact ⟨⟨⟨hd, ht, hp⟩, rfl⟩, not_quiet faults hf⟩
  | none => exact ⟨⟨hd, ht, hp⟩, rfl⟩

theorem openSchema_holds :
    Triple (Holds c) (openSchema faults) (fun _ => Holds c.withSchemaVersion)
      (fun _ s => Holds c s ∧ ¬ faults.Quiet) :=
  Triple.bind (sqlCall_holds faults _ _) fun _ => runStatement_holds faults _

theorem queryStatement_holds {α : Type} {statement : Option Prepared} (read : Tables → α) :
    Triple (Holds c) (sql (queryStatement faults statement read)) (fun a s => a = read c ∧ Holds c s)
      (fun _ s => Holds c s ∧ ¬ faults.Quiet) := by
  rintro s hs
  obtain ⟨⟨hd, ht, hp⟩, rfl⟩ := hs
  simp only [sql, exec_on, exec_queryStatement]
  cases hf : s.connection.failure faults statement with
  | some detail => exact ⟨⟨⟨hd, ht, hp⟩, rfl⟩, Faults.not_quiet_of_failure hf⟩
  | none => exact ⟨by simp [Connection.view, hp], ⟨hd, ht, hp⟩, rfl⟩

/-- `remove` leaves no row of its id, in any state its statements keep in order. -/
theorem remove_spec {H : Tables → MetadataStore → Prop} {E : Error → MetadataStore → Prop}
    (hrun : ∀ write, Triple (H c) (sql (runStatement faults (some .deleteByVector) write))
      (fun _ => H (write c)) E)
    (hquery : ∀ read : Tables → Bool, Triple (H c) (sql (queryStatement faults none read))
      (fun a s => a = read c ∧ H c s) E) (id : VectorId) :
    Triple (H c) (remove faults id)
      (fun _ s => ∃ u : Tables, H u s ∧ u.schemaInfo = c.schemaInfo ∧
        ∀ i, u.rows i = if i = id then ∅ else c.rows i) E := by
  refine Triple.bind (hquery fun t => decide (0 < (t.rows id).size)) fun present => ?_
  cases present with
  | true =>
    refine Triple.bind ((hrun (·.deleteByVector id)).conseq (fun _ h => h.2)
      (fun _ _ h => h) fun _ _ h => h) fun _ => Triple.pure fun s hs => ?_
    exact ⟨_, hs, rfl, fun i => Tables.rows_deleteByVector c id i⟩
  | false =>
    refine Triple.pure fun s hs => ⟨c, hs.2, rfl, fun i => ?_⟩
    have hempty : c.rows id = ∅ := by
      have hsize : (c.rows id).size = 0 := by simpa using hs.1
      exact Std.ExtTreeMap.eq_empty_iff_size_eq_zero.mpr hsize
    by_cases hi : i = id
    · rw [if_pos hi, hi, hempty]
    · rw [if_neg hi]

theorem remove_holds (id : VectorId) :
    Triple (Holds c) (remove faults id)
      (fun _ s => ∃ u : Tables, Holds u s ∧ u.schemaInfo = c.schemaInfo ∧
        ∀ i, u.rows i = if i = id then ∅ else c.rows i)
      (fun _ s => Holds c s ∧ ¬ faults.Quiet) :=
  remove_spec faults (runStatement_holds faults) (queryStatement_holds faults) id

theorem get_holds (id : VectorId) :
    Triple (Holds c) (get faults id) (fun m s => m = metadataOf (c.rows id) ∧ Holds c s)
      (fun _ s => Holds c s ∧ ¬ faults.Quiet) := queryStatement_holds faults _

theorem setConfig_holds (key value : String) :
    Triple (Holds c) (setConfig faults key value) (fun _ => Holds (c.setConfigValue key value))
      (fun _ s => Holds c s ∧ ¬ faults.Quiet) := runStatement_holds faults _

section Reads
variable {α β : Type}

/-- The code reads `r` from the tables `t`, unless a call of SQLite's fails. -/
def Reads (t : Tables) (x : Call α) (r : Except Error α) : Prop :=
  Triple (Holds t) x (fun a s => r = .ok a ∧ Holds t s)
    (fun e s => Holds t s ∧ (faults.Quiet → r = .error e))

theorem reads_query {statement : Option Prepared} (read : Tables → α) :
    Reads faults t (sql (queryStatement faults statement read)) (.ok (read t)) :=
  (queryStatement_holds faults read).conseq (fun _ h => h) (fun _ _ h => ⟨by rw [h.1], h.2⟩)
    fun _ _ h => ⟨h.1, fun hq => absurd hq h.2⟩

theorem reads_fromExcept (r : Except Error α) : Reads faults t (fromExcept r) r := by
  intro s hs
  cases r with
  | ok a => exact ⟨rfl, hs⟩
  | error e => exact ⟨hs, fun _ => rfl⟩

variable {faults}

theorem Reads.bind {x : Call α} {f : α → Call β} {r : Except Error α} {g : α → Except Error β}
    (hx : Reads faults t x r) (hf : ∀ a, Reads faults t (f a) (g a)) :
    Reads faults t (x >>= f) (r >>= g) := by
  intro s hs
  have h := hx s hs
  rw [exec_bind]
  rcases hexec : exec x s with ⟨r', u⟩
  rw [hexec] at h
  cases r' with
  | error e => exact ⟨h.1, fun hq => by rw [h.2 hq]; rfl⟩
  | ok a =>
    rw [h.1]
    exact hf a u h.2

end Reads

section Rollback
variable {faults}

/-- No `COMMIT` and no `ROLLBACK` fails. -/
def EndsSucceed (faults : Faults) : Prop :=
  ∀ n, faults n .commit = none ∧ faults n .rollback = none

/-- No transaction is open in SQLite, and `c` is committed. -/
def RolledBack (c : Tables) (s : MetadataStore) : Prop :=
  s.connection.pending = none ∧ s.connection.committed = c

theorem Holds.rolledBack {s : MetadataStore} (h : Holds c s) : RolledBack c s := ⟨h.1.pending, h.2⟩

theorem RolledBack.view {s : MetadataStore} (h : RolledBack c s) : s.connection.view = c := by
  rw [Connection.view, h.1, Option.getD_none, h.2]

theorem beginLocked_rolledBack :
    Triple (Holds c) (beginLocked faults) (fun _ => Within c (· = c)) (fun _ => RolledBack c) := by
  rintro s ⟨hs, rfl⟩
  cases hf : faults s.connection.clock .begin with
  | some detail =>
    simp [beginLocked, exec_bind, hs.depth, sql, executeBegin, exec_sqlCall, hf, RolledBack,
      hs.pending]
  | none =>
    simp only [beginLocked, exec_bind, exec_get, exec_set, hs.depth, sql, exec_on,
      exec_executeBegin hf hs.pending, hs.transaction, if_true, Bool.false_eq_true, if_false]
    exact ⟨rfl, rfl, rfl, _, rfl, rfl⟩

theorem rollbackLocked_rolledBack (hends : EndsSucceed faults) {R : Tables → Prop} :
    Triple (Within c R) (rollbackLocked faults) (fun _ => RolledBack c)
      (fun _ => RolledBack c) := by
  rintro s ⟨hd, ht, hc, u, hu, -⟩
  have hf := (hends s.connection.clock).2
  simp [rollbackLocked, destroyTransaction, exec_bind, exec_tryCatch, ht, sql,
    exec_executeRollback hf hu, RolledBack, hc]

theorem commitLocked_rolledBack (hends : EndsSucceed faults) :
    Triple (Within c (· = t)) (commitLocked faults) (fun _ => Holds t) (fun _ _ => False) := by
  rintro s ⟨hd, ht, hc, u, hu, rfl⟩
  have hf := (hends s.connection.clock).1
  simp only [commitLocked, exec_bind, exec_get, exec_set, hd, sql, exec_on, exec_ite,
    exec_executeCommit hf hu, ht, if_true]
  exact ⟨⟨rfl, rfl, rfl⟩, rfl⟩

/-- A `set` that throws leaves nothing of what it wrote to be read. -/
theorem set_rolledBack (hends : EndsSucceed faults) (id : VectorId) (metadata : Metadata) :
    Triple (Holds c) (set faults id metadata)
      (fun _ => Holds (c.replaceRows id metadata.toList)) (fun _ => RolledBack c) := by
  refine Triple.bind ((checkKeys_spec _).conseq (fun _ h => h) (fun _ _ h => h)
    fun _ _ h => h.1.rolledBack) fun _ => ?_
  refine Triple.bind beginLocked_rolledBack fun _ => ?_
  refine Triple.bind (Q := fun _ => Within c (· = c.replaceRows id metadata.toList))
    (Triple.tryCatch (replaceRows_within id metadata.toList c) fun e => ?_) fun _ => ?_
  · refine (Triple.bind (rollbackLocked_rolledBack hends) fun _ =>
      Triple.throw fun _ h => h).conseq (fun _ h => h.1) (fun _ _ h => h) fun _ _ h => h
  · exact (commitLocked_rolledBack hends).conseq (fun _ h => h) (fun _ _ h => h)
      fun _ _ h => h.elim

end Rollback

end MetadataStore

end VectorDb.Storage
