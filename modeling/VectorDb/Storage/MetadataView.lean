import VectorDb.Storage.MetadataOutcome

/-!
What a call does where earlier calls that failed have left a transaction open or the
depth raised: what a read sees after it, and what is committed of it.
-/
set_option autoImplicit false

namespace VectorDb.Storage

open VectorDb.Lib Throwing

namespace MetadataStore

variable {faults : Faults} {c : Tables}

section View
variable {u : Tables}

@[simp] theorem view_write (c : Connection) (t : Tables) : (c.write t).view = t := by
  unfold Connection.write Connection.view
  cases c.pending <;> rfl

/-- What a read sees. -/
def Sees (u : Tables) (s : MetadataStore) : Prop := s.connection.view = u

theorem runStatement_sees {statement : Option Prepared} (write : Tables → Tables) (u : Tables) :
    Triple (Sees u) (sql (runStatement faults statement write)) (fun _ => Sees (write u))
      (fun _ _ => True) := by
  rintro s rfl
  simp only [sql, exec_on, exec_runStatement]
  cases s.connection.failure faults statement with
  | some detail => trivial
  | none => simp [Sees]

theorem destroyTransaction_sees (faults : Faults) :
    Triple (fun s => Sees u s ∧ s.connection.committed = u) (destroyTransaction faults)
      (fun _ => Sees u) (fun _ _ => True) := by
  rintro s ⟨hv, hc⟩
  cases hf : faults s.connection.clock .rollback with
  | some detail =>
    simp [destroyTransaction, exec_tryCatch, sql, executeRollback, exec_bind, exec_sqlCall, hf]
    exact hv
  | none =>
    cases hp : s.connection.pending with
    | none =>
      simp [destroyTransaction, exec_tryCatch, sql, executeRollback, exec_bind, exec_sqlCall, hf, hp]
      exact hv
    | some t =>
      simp [destroyTransaction, exec_tryCatch, sql, exec_executeRollback hf hp]
      exact hc

theorem beginLocked_sees :
    Triple (Sees u) (beginLocked faults) (fun _ => Sees u) (fun _ _ => True) := by
  rintro s hs
  by_cases hd : s.depth = 0
  · cases hf : faults s.connection.clock .begin with
    | some detail => simp [beginLocked, exec_bind, hd, sql, executeBegin, exec_sqlCall, hf]
    | none =>
      cases hp : s.connection.pending with
      | some t =>
        simp [beginLocked, exec_bind, hd, sql, executeBegin, exec_sqlCall, hf, hp]
      | none =>
        have hc : s.connection.committed = u := by
          rw [Sees, Connection.view, hp, Option.getD_none] at hs
          exact hs
        simp only [beginLocked, exec_bind, exec_get, exec_set, hd, sql, exec_on,
          exec_executeBegin hf hp, if_true]
        cases ht : s.transaction with
        | false =>
          simp only [Bool.false_eq_true, if_false, exec_modify]
          exact hc
        | true =>
          simp only [if_true, exec_bind, exec_modify]
          have hdestroy := destroyTransaction_sees faults (u := u)
            { s with
              connection := { s.connection.tick with pending := some s.connection.committed }
              depth := s.depth + 1 } ⟨hc, hc⟩
          rw [hd, ht] at hdestroy
          dsimp only at hdestroy
          rcases hexec : exec (destroyTransaction faults) _ with ⟨r, t⟩
          rw [hexec] at hdestroy
          cases r with
          | ok a => exact hdestroy
          | error e => trivial
  · rw [beginLocked_nested (by omega)]
    exact hs

theorem commitLocked_sees :
    Triple (Sees u) (commitLocked faults) (fun _ => Sees u) (fun _ _ => True) := by
  rintro s hs
  by_cases hd : s.depth = 0
  · simp [commitLocked, exec_bind, hd]
    exact hs
  by_cases hd1 : s.depth - 1 = 0
  · cases ht : s.transaction with
    | false => simp [commitLocked, exec_bind, hd, hd1, ht]
    | true =>
      cases hf : faults s.connection.clock .commit with
      | some detail =>
        simp [commitLocked, exec_bind, hd, hd1, ht, sql, executeCommit, exec_sqlCall, hf]
      | none =>
        cases hp : s.connection.pending with
        | none =>
          simp [commitLocked, exec_bind, hd, hd1, ht, sql, executeCommit, exec_sqlCall, hf, hp]
        | some t =>
          have htu : t = u := by
            rw [Sees, Connection.view, hp, Option.getD_some] at hs
            exact hs
          simp [commitLocked, exec_bind, hd, hd1, ht, sql, exec_executeCommit hf hp, Sees,
            Connection.view, htu]
  · simp [commitLocked, exec_bind, hd, hd1]
    exact hs

theorem replaceRows_sees (id : VectorId) (entries : List (Text × MetadataValue)) :
    Triple (Sees u) (replaceRows faults id entries) (fun _ => Sees (u.replaceRows id entries))
      (fun _ _ => True) :=
  Triple.bind (runStatement_sees (·.deleteByVector id) u) fun _ =>
    Triple.forM (H := fun t => Sees t)
      (fun (t : Tables) (entry : Text × MetadataValue) =>
        t.insertValue id entry.1 (bindValue entry.2))
      (fun t entry => runStatement_sees (·.insertValue id entry.1 (bindValue entry.2)) t)
      (u.deleteByVector id)

/-- A `set` that returns is read back, whatever earlier calls have left open. -/
theorem set_sees (faults : Faults) (id : VectorId) (metadata : Metadata) :
    Triple (Sees u) (set faults id metadata)
      (fun _ => Sees (u.replaceRows id metadata.toList)) (fun _ _ => True) := by
  refine Triple.bind ((checkKeys_keeps _ (Sees u)).conseq (fun _ h => h) (fun _ _ h => h)
    fun _ _ _ => trivial) fun _ => ?_
  refine Triple.bind beginLocked_sees fun _ => ?_
  refine Triple.bind (Triple.tryCatch (replaceRows_sees id _) fun e => ?_) fun _ =>
    commitLocked_sees
  have hrollback : Maintains (fun _ : MetadataStore => True) (rollbackLocked faults) :=
    fun _ _ => trivial
  exact Triple.bind hrollback.triple fun _ => Triple.throw fun _ _ => trivial

theorem get_sees (id : VectorId) (s : MetadataStore)
    (ha : faults.Answers (s.connection.stuck .selectByVector)) :
    (exec (get faults id) s).1 = .ok (metadataOf (s.connection.view.rows id)) := by
  simp [get, sql, exec_queryStatement, ha.failure]

/-- The transaction of this call is open, or none is. -/
def OwnOrNone (s : MetadataStore) : Prop := s.depth = 1 ∨ s.connection.pending = none

theorem runStatement_ownOrNone {statement : Option Prepared} (write : Tables → Tables) :
    Maintains OwnOrNone (sql (runStatement faults statement write)) := by
  intro s hs
  simp only [sql, exec_on, exec_runStatement]
  cases s.connection.failure faults statement with
  | some detail => exact hs
  | none =>
    refine hs.imp id fun hp => ?_
    simp [Connection.write, hp]

theorem beginLocked_ownOrNone :
    Triple (fun s => s.connection.pending = none) (beginLocked faults) (fun _ => OwnOrNone)
      (fun _ _ => True) := by
  intro s hs
  by_cases hd : s.depth = 0
  · have hdepth : Maintains (fun s : MetadataStore => s.depth = 1) (do
        sql (executeBegin faults)
        if s.transaction then destroyTransaction faults
        modify fun s => { s with transaction := true } : Call Unit) := by
      refine Maintains.bind (fun _ h => h) fun _ => Maintains.ite ?_ fun _ h => h
      refine Maintains.bind (Maintains.tryCatch (fun _ h => h) fun e => ?_) fun _ _ h => h
      cases e <;> exact fun _ h => h
    have hone := (hdepth.triple.conseq (fun _ h => h)
      (fun _ t h => (Or.inl h : OwnOrNone t)) fun _ _ _ => (trivial : True))
      { s with depth := s.depth + 1 } (by simp [hd])
    simp only [beginLocked, exec_bind, exec_get, exec_set]
    rw [exec_ite, if_pos hd]
    exact hone
  · rw [beginLocked_nested (by omega)]
    exact .inr hs

theorem commitLocked_ownOrNone :
    Triple OwnOrNone (commitLocked faults) (fun _ s => s.connection.pending = none)
      (fun _ _ => True) := by
  rintro s (hd | hp)
  · cases ht : s.transaction with
    | false => simp [commitLocked, exec_bind, hd, ht]
    | true =>
      cases hf : faults s.connection.clock .commit with
      | some detail =>
        simp [commitLocked, exec_bind, hd, ht, sql, executeCommit, exec_sqlCall, hf]
      | none =>
        cases hp : s.connection.pending with
        | none =>
          simp [commitLocked, exec_bind, hd, ht, sql, executeCommit, exec_sqlCall, hf, hp]
        | some t => simp [commitLocked, exec_bind, hd, ht, sql, exec_executeCommit hf hp]
  · by_cases hd : s.depth = 0
    · simp [commitLocked, exec_bind, hd, hp]
    by_cases hd1 : s.depth - 1 = 0
    · cases ht : s.transaction with
      | false => simp [commitLocked, exec_bind, hd, hd1, ht]
      | true =>
        cases hf : faults s.connection.clock .commit with
        | some detail =>
          simp [commitLocked, exec_bind, hd, hd1, ht, sql, executeCommit, exec_sqlCall, hf]
        | none =>
          simp [commitLocked, exec_bind, hd, hd1, ht, sql, executeCommit, exec_sqlCall, hf, hp]
    · simp [commitLocked, exec_bind, hd, hd1, hp]

/-- A `set` that returns leaves no transaction open where none was. -/
theorem set_noPending (faults : Faults) (id : VectorId) (metadata : Metadata) :
    Triple (fun s => s.connection.pending = none) (set faults id metadata)
      (fun _ s => s.connection.pending = none) (fun _ _ => True) := by
  refine Triple.bind ((checkKeys_keeps _ _).conseq (fun _ h => h) (fun _ _ h => h)
    fun _ _ _ => trivial) fun _ => ?_
  refine Triple.bind beginLocked_ownOrNone fun _ => ?_
  have hbody : Maintains OwnOrNone (replaceRows faults id metadata.toList) :=
    Maintains.bind (runStatement_ownOrNone _) fun _ =>
      Maintains.forM fun entry _ => runStatement_ownOrNone _
  refine Triple.bind (Triple.tryCatch (E := fun _ _ => True) (hbody.triple.conseq (fun _ h => h)
    (fun _ _ h => h) fun _ _ _ => trivial) fun e => ?_) fun _ => commitLocked_ownOrNone
  have hrollback : Maintains (fun _ : MetadataStore => True) (rollbackLocked faults) :=
    fun _ _ => trivial
  exact Triple.bind hrollback.triple fun _ => Triple.throw fun _ _ => trivial

end View

section Committed

/-- No transaction is open, or what is committed is still `c`. -/
def Uncommitted (c : Tables) (s : MetadataStore) : Prop :=
  s.connection.pending = none ∨ s.connection.committed = c

theorem executeRollback_uncommitted : Maintains (Uncommitted c) (sql (executeRollback faults)) := by
  intro s hs
  cases hf : faults s.connection.clock .rollback with
  | some detail =>
    simp [sql, executeRollback, exec_bind, exec_sqlCall, hf]
    exact hs
  | none =>
    cases hp : s.connection.pending with
    | none =>
      simp [sql, executeRollback, exec_bind, exec_sqlCall, hf, hp]
      exact .inl hp
    | some t =>
      simp [sql, exec_executeRollback hf hp]
      exact .inl rfl

theorem destroyTransaction_uncommitted : Maintains (Uncommitted c) (destroyTransaction faults) :=
  Maintains.tryCatch executeRollback_uncommitted fun e => by
    cases e <;> exact fun _ h => h

theorem runStatement_uncommitted {statement : Option Prepared} (write : Tables → Tables) :
    Maintains (Uncommitted c) (sql (runStatement faults statement write)) := by
  intro s hs
  simp only [sql, exec_on, exec_runStatement]
  cases s.connection.failure faults statement with
  | some detail => exact hs
  | none =>
    cases hp : s.connection.pending with
    | none =>
      refine .inl ?_
      simp [Connection.write, hp]
    | some t =>
      refine .inr ?_
      rw [Uncommitted, hp] at hs
      simpa [Connection.write, hp] using hs

theorem rollbackLocked_uncommitted : Maintains (Uncommitted c) (rollbackLocked faults) := by
  intro s hs
  have hclose : Maintains (Uncommitted c) (do
      if s.transaction then destroyTransaction faults
      modify fun s => { s with transaction := false } : Call Unit) :=
    Maintains.ite (Maintains.bind destroyTransaction_uncommitted fun _ _ h => h) fun _ h => h
  exact hclose { s with depth := 0 } hs

theorem commitLocked_uncommitted : Maintains (Uncommitted c) (commitLocked faults) := by
  intro s hs
  by_cases hd : s.depth = 0
  · simp [commitLocked, exec_bind, hd]
    exact hs
  by_cases hd1 : s.depth - 1 = 0
  · cases ht : s.transaction with
    | false =>
      simp [commitLocked, exec_bind, hd, hd1, ht]
      exact hs
    | true =>
      cases hf : faults s.connection.clock .commit with
      | some detail =>
        simp [commitLocked, exec_bind, hd, hd1, ht, sql, executeCommit, exec_sqlCall, hf]
        exact hs
      | none =>
        cases hp : s.connection.pending with
        | none =>
          simp [commitLocked, exec_bind, hd, hd1, ht, sql, executeCommit, exec_sqlCall, hf, hp]
          exact .inl hp
        | some t =>
          simp [commitLocked, exec_bind, hd, hd1, ht, sql, exec_executeCommit hf hp]
          exact .inl rfl
  · simp [commitLocked, exec_bind, hd, hd1]
    exact hs

theorem beginLocked_committed :
    Maintains (fun s => s.connection.committed = c) (beginLocked faults) := by
  have hrollback : Maintains (fun s : MetadataStore => s.connection.committed = c)
      (sql (executeRollback faults)) := by
    intro s hs
    cases hf : faults s.connection.clock .rollback with
    | some detail =>
      simp [sql, executeRollback, exec_bind, exec_sqlCall, hf]
      exact hs
    | none =>
      cases hp : s.connection.pending <;>
        simp [sql, executeRollback, exec_bind, exec_sqlCall, hf, hp] <;> exact hs
  have hdestroy : Maintains (fun s : MetadataStore => s.connection.committed = c)
      (destroyTransaction faults) := Maintains.tryCatch hrollback fun e => by
    cases e <;> exact fun _ h => h
  have hbegin : Maintains (fun s : MetadataStore => s.connection.committed = c)
      (sql (executeBegin faults)) := by
    intro s hs
    cases hf : faults s.connection.clock .begin with
    | some detail =>
      simp [sql, executeBegin, exec_bind, exec_sqlCall, hf]
      exact hs
    | none =>
      cases hp : s.connection.pending <;>
        simp [sql, executeBegin, exec_bind, exec_sqlCall, hf, hp] <;> exact hs
  intro s hs
  have hopen : Maintains (fun s : MetadataStore => s.connection.committed = c) (do
      sql (executeBegin faults)
      if s.transaction then destroyTransaction faults
      modify fun s => { s with transaction := true } : Call Unit) :=
    Maintains.bind hbegin fun _ =>
      Maintains.ite (Maintains.bind hdestroy fun _ _ h => h) fun _ h => h
  simp only [beginLocked, exec_bind, exec_get, exec_set]
  rw [exec_ite]
  split
  · exact hopen { s with depth := s.depth + 1 } hs
  · exact hs

/-- Of a `set` that throws nothing is committed, or it ran outside a transaction. -/
theorem set_uncommitted (faults : Faults) (id : VectorId) (metadata : Metadata) :
    Triple (RolledBack c) (set faults id metadata) (fun _ => Uncommitted c)
      (fun _ => Uncommitted c) := by
  refine Triple.bind ((checkKeys_keeps _ (RolledBack c)).conseq (fun _ h => h) (fun _ _ h => h)
    fun _ _ h => .inl h.1) fun _ => ?_
  refine Triple.bind (Q := fun _ => Uncommitted c) (beginLocked_committed.triple.conseq
    (fun _ h => h.2) (fun _ _ h => .inr h) fun _ _ h => .inr h) fun _ => ?_
  have hbody : Maintains (Uncommitted c) (replaceRows faults id metadata.toList) :=
    Maintains.bind (runStatement_uncommitted _) fun _ =>
      Maintains.forM fun entry _ => runStatement_uncommitted _
  exact (Maintains.bind (Maintains.tryCatch hbody fun e =>
    Maintains.bind rollbackLocked_uncommitted fun _ => Maintains.throw e) fun _ =>
    commitLocked_uncommitted).triple

/-- A `set` that returns is committed, where no transaction was left open. -/
theorem set_committed (faults : Faults) (id : VectorId) (metadata : Metadata) :
    Triple (RolledBack c) (set faults id metadata)
      (fun _ => RolledBack (c.replaceRows id metadata.toList)) (fun _ => Uncommitted c) := by
  intro s hs
  have hsees := set_sees faults id metadata s hs.view
  have hnone := set_noPending faults id metadata s hs.1
  have hlost := set_uncommitted faults id metadata s hs
  rcases hexec : exec (set faults id metadata) s with ⟨r, t⟩
  rw [hexec] at hsees hnone hlost
  cases r with
  | error e => exact hlost
  | ok a =>
    have hview : t.connection.view = c.replaceRows id metadata.toList := hsees
    rw [Connection.view, hnone] at hview
    exact ⟨hnone, hview⟩

theorem runStatement_rolledBack {statement : Option Prepared} (write : Tables → Tables) :
    Triple (RolledBack c) (sql (runStatement faults statement write)) (fun _ => RolledBack (write c))
      (fun _ => RolledBack c) := by
  rintro s ⟨hp, rfl⟩
  simp only [sql, exec_on, exec_runStatement]
  cases s.connection.failure faults statement with
  | some detail => exact ⟨hp, rfl⟩
  | none => exact ⟨by simp [Connection.write, hp], by simp [Connection.write, Connection.view, hp]⟩

theorem setConfig_rolledBack (faults : Faults) (key value : String) :
    Triple (RolledBack c) (setConfig faults key value)
      (fun _ => RolledBack (c.setConfigValue key value)) (fun _ => RolledBack c) :=
  runStatement_rolledBack _

theorem queryStatement_rolledBack {α : Type} {statement : Option Prepared} (read : Tables → α) :
    Triple (RolledBack c) (sql (queryStatement faults statement read))
      (fun a s => a = read c ∧ RolledBack c s) (fun _ => RolledBack c) := by
  rintro s ⟨hp, rfl⟩
  simp only [sql, exec_on, exec_queryStatement]
  cases s.connection.failure faults statement with
  | some detail => exact ⟨hp, rfl⟩
  | none => exact ⟨by simp [Connection.view, hp], hp, rfl⟩

theorem remove_rolledBack (faults : Faults) (id : VectorId) :
    Triple (RolledBack c) (remove faults id)
      (fun _ s => ∃ u : Tables, RolledBack u s ∧ u.schemaInfo = c.schemaInfo ∧
        ∀ i, u.rows i = if i = id then ∅ else c.rows i)
      (fun _ => RolledBack c) :=
  remove_spec faults runStatement_rolledBack queryStatement_rolledBack id

end Committed

end MetadataStore

end VectorDb.Storage
