import VectorDb.Storage.MetadataTransactions

/-!
What every write of a call keeps of the tables is kept of what is committed and of
what an open transaction sees, whichever of SQLite's calls fail.
-/
set_option autoImplicit false

namespace VectorDb.Storage

open VectorDb.Lib Throwing

namespace MetadataStore

/-- `P` holds of every version of the tables that a later read may see. -/
structure Everywhere (P : Tables → Prop) (s : MetadataStore) : Prop where
  committed : P s.connection.committed
  pending : ∀ t, s.connection.pending = some t → P t

variable {P : Tables → Prop} {faults : Faults}

theorem Everywhere.view {s : MetadataStore} (h : Everywhere P s) : P s.connection.view := by
  unfold Connection.view
  cases hp : s.connection.pending with
  | none => exact h.committed
  | some t => exact h.pending t hp

/-- Where nothing is open, what was committed is all there is to see. -/
theorem everywhere_of_committed {s : MetadataStore} (hp : s.connection.pending = none)
    (h : P s.connection.committed) : Everywhere P s :=
  ⟨h, fun t ht => by rw [hp] at ht; cases ht⟩

theorem everywhere_fresh {t : Tables} (h : P t) : Everywhere P (fresh t) :=
  everywhere_of_committed rfl h

/-- A call that keeps `P` of both versions. -/
abbrev Frames (P : Tables → Prop) {α : Type} (x : Call α) : Prop := Maintains (Everywhere P) x

section Sql
variable {c : Connection}

/-- `P` of both versions a connection has. -/
def Connection.Everywhere (P : Tables → Prop) (c : Connection) : Prop :=
  P c.committed ∧ ∀ t, c.pending = some t → P t

theorem frames_sql {α : Type} {x : Sql α} (hx : Maintains (Connection.Everywhere P) x) :
    Frames P (sql x) := by
  rintro s ⟨hc, hp⟩
  obtain ⟨hc', hp'⟩ := hx s.connection ⟨hc, hp⟩
  exact ⟨hc', hp'⟩

theorem maintains_sqlCall (call : SqlCall) (message : String → String) :
    Maintains (Connection.Everywhere P) (sqlCall faults call message) := by
  rintro c ⟨hc, hp⟩
  rw [exec_sqlCall]
  cases faults c.clock call <;> exact ⟨hc, hp⟩

theorem maintains_bindAndStep (statement : Option Prepared) :
    Maintains (Connection.Everywhere P) (bindAndStep faults statement) := by
  rintro c ⟨hc, hp⟩
  rw [exec_bindAndStep]
  cases c.failure faults statement <;> exact ⟨hc, hp⟩

theorem maintains_write {write : Tables → Tables} (hw : ∀ t, P t → P (write t)) :
    Maintains (Connection.Everywhere P)
      (modify fun c => c.write (write c.view) : Sql Unit) := by
  rintro c ⟨hc, hp⟩
  show Connection.Everywhere P (c.write (write c.view))
  unfold Connection.write Connection.view
  cases hpend : c.pending with
  | none => exact ⟨hw _ hc, fun t ht => by simp at ht⟩
  | some u =>
    refine ⟨hc, fun t ht => ?_⟩
    cases ht
    exact hw _ (hp u hpend)

theorem frames_runStatement {statement : Option Prepared} {write : Tables → Tables}
    (hw : ∀ t, P t → P (write t)) : Frames P (sql (runStatement faults statement write)) :=
  frames_sql (Maintains.bind (maintains_bindAndStep _) fun _ => maintains_write hw)

theorem frames_queryStatement {α : Type} {statement : Option Prepared} (read : Tables → α) :
    Frames P (sql (queryStatement faults statement read)) := by
  refine frames_sql fun c hc => ?_
  rw [exec_queryStatement]
  cases c.failure faults statement <;> exact hc

theorem frames_executeBegin : Frames P (sql (executeBegin faults)) := by
  refine frames_sql (Maintains.bind (maintains_sqlCall _ _) fun _ => ?_)
  rintro c ⟨hc, hp⟩
  simp only [exec_bind, exec_get]
  cases hpend : c.pending with
  | some t => exact ⟨hc, hp⟩
  | none =>
    refine ⟨hc, fun t ht => ?_⟩
    cases ht
    exact hc

theorem frames_executeCommit : Frames P (sql (executeCommit faults)) := by
  refine frames_sql (Maintains.bind (maintains_sqlCall _ _) fun _ => ?_)
  rintro c ⟨hc, hp⟩
  simp only [exec_bind, exec_get]
  cases hpend : c.pending with
  | some t => exact ⟨hp t hpend, fun u hu => by cases hu⟩
  | none => exact ⟨hc, hp⟩

theorem frames_executeRollback : Frames P (sql (executeRollback faults)) := by
  refine frames_sql (Maintains.bind (maintains_sqlCall _ _) fun _ => ?_)
  rintro c ⟨hc, hp⟩
  simp only [exec_bind, exec_get]
  cases hpend : c.pending with
  | some t => exact ⟨hc, fun u hu => by cases hu⟩
  | none => exact ⟨hc, hp⟩

end Sql

/-- What changes the depth and the object only. -/
theorem frames_bookkeeping {f : MetadataStore → MetadataStore}
    (hf : ∀ s, (f s).connection = s.connection) :
    Frames P (modify f : Call Unit) := by
  rintro s ⟨hc, hp⟩
  exact ⟨by rw [exec_modify, hf]; exact hc, by rw [exec_modify, hf]; exact hp⟩

theorem frames_destroyTransaction : Frames P (destroyTransaction faults) := by
  refine Maintains.tryCatch frames_executeRollback fun e => ?_
  cases e <;> first | exact Maintains.pure _ | exact Maintains.throw _

theorem frames_beginLocked : Frames P (beginLocked faults) := by
  rintro s ⟨hc, hp⟩
  have hopen : Frames P (do
      sql (executeBegin faults)
      if s.transaction then destroyTransaction faults
      modify fun s => { s with transaction := true } : Call Unit) :=
    Maintains.bind frames_executeBegin fun _ =>
      Maintains.ite
        (Maintains.bind frames_destroyTransaction fun _ =>
          frames_bookkeeping (f := fun s => { s with transaction := true }) fun _ => rfl)
        (frames_bookkeeping (f := fun s => { s with transaction := true }) fun _ => rfl)
  simp only [beginLocked, exec_bind, exec_get, exec_set]
  rw [exec_ite]
  split
  · exact hopen { s with depth := s.depth + 1 } ⟨hc, hp⟩
  · exact ⟨hc, hp⟩

theorem frames_commitLocked : Frames P (commitLocked faults) := by
  rintro s ⟨hc, hp⟩
  have hclose : Frames P (do
      if s.transaction then
        sql (executeCommit faults)
        modify fun s => { s with transaction := false }
      else throw (.foreign "null pointer dereference") : Call Unit) :=
    Maintains.ite (Maintains.bind frames_executeCommit fun _ => frames_bookkeeping fun _ => rfl)
      (Maintains.throw _)
  simp only [commitLocked, exec_bind, exec_get]
  rw [exec_ite]
  split
  · exact ⟨hc, hp⟩
  · simp only [exec_bind, exec_set]
    rw [exec_ite]
    split
    · exact hclose { s with depth := s.depth - 1 } ⟨hc, hp⟩
    · exact ⟨hc, hp⟩

theorem frames_rollbackLocked : Frames P (rollbackLocked faults) := by
  rintro s ⟨hc, hp⟩
  have hclose : Frames P (do
      if s.transaction then destroyTransaction faults
      modify fun s => { s with transaction := false } : Call Unit) :=
    Maintains.ite
      (Maintains.bind frames_destroyTransaction fun _ =>
        frames_bookkeeping (f := fun s => { s with transaction := false }) fun _ => rfl)
      (frames_bookkeeping (f := fun s => { s with transaction := false }) fun _ => rfl)
  exact hclose { s with depth := 0 } ⟨hc, hp⟩

theorem frames_locked {body : Call Unit} (hb : Frames P body) : Frames P (locked faults body) := by
  refine Maintains.bind frames_beginLocked fun _ => Maintains.bind ?_ fun _ => frames_commitLocked
  exact Maintains.tryCatch hb fun e =>
    Maintains.bind frames_rollbackLocked fun _ => Maintains.throw e

theorem frames_checkKeys (keys : List Text) : Frames P (checkKeys keys) :=
  Maintains.ite (Maintains.throw _) (Maintains.pure _)

/-- `set` writes the rows of one id. -/
theorem frames_set {id : VectorId} (hd : ∀ t, P t → P (t.deleteByVector id))
    (hi : ∀ t key row, P t → P (t.insertValue id key row)) (metadata : Metadata) :
    Frames P (set faults id metadata) := by
  refine Maintains.bind (frames_checkKeys _) fun _ => frames_locked ?_
  refine Maintains.bind (frames_runStatement hd) fun _ => Maintains.forM fun entry _ => ?_
  exact frames_runStatement fun t ht => hi t _ _ ht

theorem frames_remove {id : VectorId} (hd : ∀ t, P t → P (t.deleteByVector id)) :
    Frames P (remove faults id) := by
  refine Maintains.bind (frames_queryStatement _) fun present => Maintains.ite ?_ ?_
  · exact Maintains.bind (frames_runStatement hd) fun _ => Maintains.pure _
  · exact Maintains.pure _

theorem frames_setConfig {key value : String} (hw : ∀ t, P t → P (t.setConfigValue key value)) :
    Frames P (setConfig faults key value) := frames_runStatement hw

end MetadataStore

end VectorDb.Storage
