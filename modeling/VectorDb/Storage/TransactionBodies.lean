import VectorDb.Storage.MetadataOutcome

/-!
A body that sets metadata inside `in_transaction`, at any depth of nesting: what it
wrote is committed or thrown away as a whole as long as it throws as soon as one of
its calls has been rolled back.
-/
set_option autoImplicit false

namespace VectorDb.Storage

open VectorDb.Lib Throwing

/-- The tables after these calls to `set`, one after the other. -/
def Tables.replaceAll (t : Tables) (sets : List (VectorId × Metadata)) : Tables :=
  sets.foldl (fun t entry => t.replaceRows entry.1 entry.2.toList) t

@[simp] theorem Tables.replaceAll_nil (t : Tables) : t.replaceAll [] = t := rfl

@[simp] theorem Tables.replaceAll_cons (t : Tables) (entry : VectorId × Metadata)
    (sets : List (VectorId × Metadata)) :
    t.replaceAll (entry :: sets) = (t.replaceRows entry.1 entry.2.toList).replaceAll sets := rfl

theorem Tables.replaceAll_append (t : Tables) (first second : List (VectorId × Metadata)) :
    t.replaceAll (first ++ second) = (t.replaceAll first).replaceAll second :=
  List.foldl_append

namespace MetadataStore

/-- The body calls nothing but `set` and further transactions of such bodies. -/
def Body.OnlySets : Body → Prop
  | .done => True
  | .raise _ => True
  | .request r next => (∃ id metadata, r = .set id metadata) ∧ ∀ reply, (next reply).OnlySets
  | .transaction body next => body.OnlySets ∧ ∀ outcome, (next outcome).OnlySets

/-- The sets of a body started in this state that returned, in order; those of an
inner transaction that threw do not count. -/
def Body.wrote (faults : Faults) : Body → MetadataStore → List (VectorId × Metadata)
  | .done, _ => []
  | .raise _, _ => []
  | .request r next, s =>
    let (reply, t) := exec (r.run faults) s
    (match r, reply with
      | .set id metadata, .ok _ => [(id, metadata)]
      | _, _ => []) ++ (next reply).wrote faults t
  | .transaction body next, s =>
    let (outcome, t) := exec (inTransaction faults (body.run faults)) s
    (match outcome with
      | .ok _ => body.wrote faults (exec (beginTransaction faults) s).2
      | .error _ => []) ++ (next outcome).wrote faults t

/-- A set with an empty key, refused before anything is begun. -/
def Request.Refused : Request → Prop
  | .set _ metadata => metadata.keys.any List.isEmpty = true
  | _ => False

/-- Started in this state, the body throws as soon as SQLite has made one of its sets
fail or one of its inner transactions has thrown. -/
def Body.GivesUp (faults : Faults) : Body → MetadataStore → Prop
  | .done, _ => True
  | .raise _, _ => True
  | .request r next, s =>
    let (reply, t) := exec (r.run faults) s
    (∀ e, reply = .error e → ¬ r.Refused → ∃ e', next reply = .raise e') ∧
      (next reply).GivesUp faults t
  | .transaction body next, s =>
    let (outcome, t) := exec (inTransaction faults (body.run faults)) s
    body.GivesUp faults (exec (beginTransaction faults) s).2 ∧
      (∀ e, outcome = .error e → ∃ e', next outcome = .raise e') ∧ (next outcome).GivesUp faults t

/-- Inside `d` transactions, the outermost of which found `c` committed and now sees `t`. -/
structure Inside (c : Tables) (d : Nat) (t : Tables) (s : MetadataStore) : Prop where
  deep : 0 < d
  depth : s.depth = d
  transaction : s.transaction = true
  committed : s.connection.committed = c
  pending : s.connection.pending = some t

/-- Still inside, whatever was written. -/
def StillInside (c : Tables) (d : Nat) (s : MetadataStore) : Prop := ∃ t, Inside c d t s

variable (faults : Faults) {c t : Tables} {d : Nat}

theorem runStatement_inside {statement : Option Prepared} (write : Tables → Tables) :
    Triple (Inside c d t) (sql (runStatement faults statement write))
      (fun _ => Inside c d (write t)) (fun _ => StillInside c d) := by
  rintro s ⟨hpos, hd, ht, hc, hp⟩
  simp only [sql, exec_on, exec_runStatement]
  cases hf : s.connection.failure faults statement with
  | some detail => exact ⟨t, hpos, hd, ht, hc, hp⟩
  | none =>
    refine ⟨hpos, hd, ht, ?_, ?_⟩
    · simp [Connection.write, hp, hc]
    · simp [Connection.write, hp, Connection.view]

theorem replaceRows_inside (id : VectorId) (entries : List (Text × MetadataValue)) :
    Triple (Inside c d t) (replaceRows faults id entries)
      (fun _ => Inside c d (t.replaceRows id entries)) (fun _ => StillInside c d) :=
  Triple.bind (runStatement_inside faults (·.deleteByVector id)) fun _ =>
    Triple.forM (H := fun t => Inside c d t)
      (fun (t : Tables) (entry : Text × MetadataValue) =>
        t.insertValue id entry.1 (bindValue entry.2))
      (fun _ entry => runStatement_inside faults (·.insertValue id entry.1 (bindValue entry.2)))
      (t.deleteByVector id)

theorem beginLocked_inside :
    Triple (Inside c d t) (beginLocked faults) (fun _ => Inside c (d + 1) t)
      (fun _ _ => False) := by
  rintro s ⟨hpos, hd, ht, hc, hp⟩
  rw [beginLocked_nested (by omega)]
  exact ⟨by omega, by simp [hd], ht, hc, hp⟩

theorem commitLocked_inside (hpos : 0 < d) :
    Triple (Inside c (d + 1) t) (commitLocked faults) (fun _ => Inside c d t)
      (fun _ _ => False) := by
  rintro s ⟨-, hd, ht, hc, hp⟩
  rw [commitLocked_nested (by omega)]
  exact ⟨hpos, by simp [hd], ht, hc, hp⟩

variable {faults}

/-- Rolling back at any depth closes the one transaction there is. -/
theorem rollbackLocked_inside (hends : EndsSucceed faults) :
    Triple (fun s => StillInside c d s ∨ Holds c s) (rollbackLocked faults) (fun _ => Holds c)
      (fun _ _ => False) := by
  rintro s (⟨t, -, hd, ht, hc, hp⟩ | ⟨hs, rfl⟩)
  · have hf := (hends s.connection.clock).2
    simp only [rollbackLocked, destroyTransaction, exec_bind, exec_tryCatch, exec_get, exec_set,
      exec_modify, ht, sql, exec_on, exec_executeRollback hf hp, if_true]
    exact ⟨⟨rfl, rfl, rfl⟩, hc⟩
  · simp only [rollbackLocked, exec_bind, exec_get, exec_set, exec_modify, hs.transaction,
      Bool.false_eq_true, if_false]
    exact ⟨⟨rfl, rfl, hs.pending⟩, rfl⟩

/-- The handler of a transaction, and its rethrow. -/
theorem rollback_rethrow_inside (hends : EndsSucceed faults) (e : Error) :
    Triple (fun s => StillInside c d s ∨ Holds c s)
      (do rollbackLocked faults; throw e : Call Unit) (fun _ _ => False) (fun _ => Holds c) :=
  Triple.bind ((rollbackLocked_inside hends).conseq (fun _ h => h) (fun _ _ h => h)
    fun _ _ h => h.elim) fun _ => Triple.throw fun _ h => h

/-- A transaction inside another one writes into it, or ends it. -/
theorem locked_inside (hends : EndsSucceed faults) (body : Call Unit) {u : Tables}
    {s : MetadataStore} (hs : Inside c d t s)
    (hb : match exec body (exec (beginLocked faults) s).2 with
      | (.ok _, s') => Inside c (d + 1) u s'
      | (.error _, s') => StillInside c (d + 1) s' ∨ Holds c s') :
    match exec (locked faults body) s with
    | (.ok _, s') => Inside c d u s'
    | (.error _, s') => Holds c s' := by
  obtain ⟨⟨⟩, s₁, hbegin, -⟩ := Triple.returns (beginLocked_inside faults) hs
  rw [hbegin] at hb
  rw [locked, exec_bind_ok hbegin, exec_bind, exec_tryCatch]
  rcases hr : exec body s₁ with ⟨r, s₂⟩
  rw [hr] at hb
  cases r with
  | ok a =>
    obtain ⟨⟨⟩, s₃, hcommit, hinside⟩ := Triple.returns (commitLocked_inside faults hs.deep) hb
    simp only [hcommit]
    exact hinside
  | error e =>
    have hroll := rollback_rethrow_inside hends e s₂ hb
    dsimp only
    rcases hx : exec (do rollbackLocked faults; throw e : Call Unit) s₂ with ⟨r', s₃⟩
    rw [hx] at hroll
    cases r' with
    | ok a => exact hroll.elim
    | error e' => exact hroll

theorem set_inside (hends : EndsSucceed faults) (id : VectorId) {metadata : Metadata}
    (hm : ¬ metadata.keys.any List.isEmpty = true) {s : MetadataStore} (hs : Inside c d t s) :
    match exec (set faults id metadata) s with
    | (.ok _, s') => Inside c d (t.replaceRows id metadata.toList) s'
    | (.error _, s') => Holds c s' := by
  have hset : set faults id metadata = locked faults (replaceRows faults id metadata.toList) := by
    simp [set, checkKeys, hm]
  rw [hset]
  apply locked_inside hends _ hs
  obtain ⟨⟨⟩, s₁, hbegin, hinside⟩ := Triple.returns (beginLocked_inside faults) hs
  have hrows := replaceRows_inside faults id metadata.toList s₁ hinside
  rw [hbegin]
  rcases hr : exec (replaceRows faults id metadata.toList) s₁ with ⟨r, s₂⟩
  rw [hr] at hrows
  cases r with
  | ok a => exact hrows
  | error e => exact .inl hrows

/-- A body inside a transaction that gives up when a call of its has been rolled back. -/
theorem Body.run_inside (hends : EndsSucceed faults) (body : Body) (hsets : body.OnlySets)
    {s : MetadataStore} (hs : Inside c d t s) (hgives : body.GivesUp faults s) :
    match exec (body.run faults) s with
    | (.ok _, s') => Inside c d (t.replaceAll (body.wrote faults s)) s'
    | (.error _, s') => StillInside c d s' ∨ Holds c s' := by
  induction body generalizing d t s with
  | done => exact hs
  | raise e => exact .inl ⟨t, hs⟩
  | request r next ih =>
    obtain ⟨⟨id, metadata, rfl⟩, hnext⟩ := hsets
    rcases hr : exec ((Request.set id metadata).run faults) s with ⟨reply, s₁⟩
    simp only [Body.GivesUp, hr] at hgives
    obtain ⟨hraise, hgives⟩ := hgives
    simp only [Body.run, Body.wrote, exec_bind, exec_attempt, hr]
    by_cases hm : metadata.keys.any List.isEmpty = true
    · rw [Request.run, exec_bind_error (exec_set_rejected faults hm id s)] at hr
      cases hr
      exact ih _ (hnext _) hs hgives
    have hset := set_inside hends id hm hs
    rw [Request.run, exec_bind] at hr
    rcases hx : exec (set faults id metadata) s with ⟨r, s₂⟩
    rw [hx] at hset hr
    cases r with
    | ok a =>
      cases hr
      simpa using ih _ (hnext _) hset hgives
    | error e =>
      cases hr
      obtain ⟨e', he'⟩ := hraise e rfl hm
      rw [he']
      exact .inr hset
  | transaction body next ihb ihn =>
    obtain ⟨hbody, hnext⟩ := hsets
    rcases hr : exec (inTransaction faults (body.run faults)) s with ⟨outcome, s₁⟩
    simp only [Body.GivesUp, hr] at hgives
    obtain ⟨hinner, hraise, hgives⟩ := hgives
    have hlocked := locked_inside hends (body.run faults)
      (u := t.replaceAll (body.wrote faults (exec (beginTransaction faults) s).2)) hs (by
        obtain ⟨⟨⟩, s₁, hb, hin⟩ := Triple.returns (beginLocked_inside faults) hs
        rw [beginTransaction, hb] at hinner ⊢
        exact ihb hbody hin hinner)
    simp only [Body.run, Body.wrote, exec_bind, exec_attempt, hr]
    change match exec (inTransaction faults (body.run faults)) s with
      | (.ok _, s') => _
      | (.error _, s') => _ at hlocked
    rw [hr] at hlocked
    cases outcome with
    | ok a =>
      rw [Tables.replaceAll_append]
      exact ihn _ (hnext _) hlocked hgives
    | error e =>
      obtain ⟨e', he'⟩ := hraise e rfl
      simp only [he']
      exact .inr hlocked

theorem beginLocked_opens {s : MetadataStore} (hs : Holds c s) :
    match exec (beginLocked faults) s with
    | (.ok _, s') => Inside c 1 c s'
    | (.error _, s') => RolledBack c s' := by
  have hbegin := @beginLocked_rolledBack faults c s hs
  rcases hr : exec (beginLocked faults) s with ⟨r, s'⟩
  rw [hr] at hbegin
  cases r with
  | ok a =>
    obtain ⟨hd, ht, hc, u, hu, rfl⟩ := hbegin
    exact ⟨by omega, hd, ht, hc, hu⟩
  | error e => exact hbegin

/-- Called with nothing open, with a body that throws as soon as one of its calls
has been rolled back, `in_transaction` has committed every set of the body that
returned if it returns, and if it throws the tables read as before. -/
theorem inTransaction_all_or_nothing (faults : Faults) (hends : EndsSucceed faults)
    (body : Body) (hsets : body.OnlySets) (s : MetadataStore) (hs : s.Closed)
    (hgives : body.GivesUp faults (exec (beginTransaction faults) s).2) :
    match exec (inTransaction faults (body.run faults)) s with
    | (.ok _, t) => t.connection.pending = none ∧ t.connection.committed =
        s.connection.committed.replaceAll (body.wrote faults (exec (beginTransaction faults) s).2)
    | (.error _, t) => t.connection.committed = s.connection.committed ∧
        t.connection.view = s.connection.committed := by
  have hbegin := @beginLocked_opens faults s.connection.committed s ⟨hs, rfl⟩
  rw [inTransaction, exec_bind]
  rcases hb : exec (beginTransaction faults) s with ⟨r, s₁⟩
  rw [beginTransaction] at hb
  rw [hb] at hbegin
  cases r with
  | error e => exact ⟨hbegin.2, hbegin.view⟩
  | ok a =>
    rw [beginTransaction, hb] at hgives
    have hbody := Body.run_inside hends body hsets hbegin hgives
    dsimp only
    rw [exec_bind, exec_tryCatch]
    rcases hr : exec (body.run faults) s₁ with ⟨r', s₂⟩
    rw [hr] at hbody
    cases r' with
    | ok b =>
      have hcommit := commitLocked_rolledBack hends s₂
        ⟨hbody.depth, hbody.transaction, hbody.committed, _, hbody.pending, rfl⟩
      dsimp only [commitTransaction]
      rcases hx : exec (commitLocked faults) s₂ with ⟨r'', s₃⟩
      rw [hx] at hcommit
      cases r'' with
      | ok b => exact ⟨hcommit.1.pending, hcommit.2⟩
      | error e => exact hcommit.elim
    | error e =>
      have hroll := rollback_rethrow_inside hends e s₂ hbody
      dsimp only [rollbackTransaction]
      rcases hx : exec (do rollbackLocked faults; throw e : Call Unit) s₂ with ⟨r'', s₃⟩
      rw [hx] at hroll
      cases r'' with
      | ok b => exact hroll.elim
      | error e' => exact ⟨hroll.2, hroll.view⟩

/-- SQLite's third call fails if it is a statement. -/
def fullAtThird : Faults := fun n call =>
  if n = 2 ∧ call = .statement then some "database or disk is full" else none

theorem endsSucceed_fullAtThird : EndsSucceed fullAtThird := fun n => by simp [fullAtThird]

/-- The `DELETE` that failed stays without a reset. -/
def deleteStuck : Prepared → Bool := Function.update (fun _ => false) .deleteByVector true

/-- Two sets, and what the body does about the second. -/
def twoSets (next : Except Error Reply → Body) : Body :=
  .request (.set 0 ∅) fun _ => .request (.set 1 ∅) next

section TwoSets
variable (c t : Tables)

theorem exec_begin_fullAtThird : exec (beginTransaction fullAtThird) (fresh t) =
    (.ok (), ⟨⟨t, some t, 1, fun _ => false⟩, 1, true⟩) := rfl

theorem exec_firstSet_fullAtThird :
    exec ((Request.set 0 ∅).run fullAtThird) ⟨⟨c, some t, 1, fun _ => false⟩, 1, true⟩ =
      (.ok .done, ⟨⟨c, some (t.replaceRows 0 []), 2, fun _ => false⟩, 1, true⟩) := rfl

theorem exec_secondSet_fullAtThird :
    exec ((Request.set 1 ∅).run fullAtThird) ⟨⟨c, some t, 2, fun _ => false⟩, 1, true⟩ =
      (.error (.metadata "database or disk is full"),
        ⟨⟨c, none, 4, deleteStuck⟩, 0, false⟩) := rfl

end TwoSets

theorem onlySets_twoSets {next : Except Error Reply → Body} (h : ∀ r, (next r).OnlySets) :
    (twoSets next).OnlySets := ⟨⟨0, ∅, rfl⟩, fun _ => ⟨⟨1, ∅, rfl⟩, h⟩⟩

/-- One row, of the vector 0. -/
def oneRow : Tables := Tables.insertValue ⟨∅, ∅⟩ 0 [107] ⟨0, none, none, none⟩

theorem oneRow_ne_deleted : oneRow ≠ oneRow.replaceRows 0 [] := by
  intro h
  have hrows := congrArg (fun t => (t.rows 0).contains [107]) h
  simp [oneRow, Tables.replaceRows, Tables.rows_deleteByVector, Tables.rows_insertValue] at hrows

/-- The body throws on. -/
def rethrow : Except Error Reply → Body
  | .ok _ => .done
  | .error e => .raise e

theorem givesUp_twoSets_rethrow (c t : Tables) :
    (twoSets rethrow).GivesUp fullAtThird ⟨⟨c, some t, 1, fun _ => false⟩, 1, true⟩ := by
  simp only [twoSets, Body.GivesUp, exec_firstSet_fullAtThird, exec_secondSet_fullAtThird, rethrow]
  exact ⟨fun _ h => (by cases h), fun _ _ _ => ⟨_, rfl⟩, trivial⟩

theorem exec_twoSets_rethrow (c t : Tables) :
    (exec ((twoSets rethrow).run fullAtThird) ⟨⟨c, some t, 1, fun _ => false⟩, 1, true⟩) =
      (.error (.metadata "database or disk is full"),
        ⟨⟨c, none, 4, deleteStuck⟩, 0, false⟩) := by
  simp only [twoSets, Body.run, exec_bind, exec_attempt, exec_firstSet_fullAtThird,
    exec_secondSet_fullAtThird, rethrow, exec_throw]

theorem inTransaction_all_or_nothing_rethrow :
    ∃ e t, exec (inTransaction fullAtThird ((twoSets rethrow).run fullAtThird)) (fresh oneRow) =
      (.error e, t) ∧ t.connection.view = oneRow := by
  have h := inTransaction_all_or_nothing fullAtThird endsSucceed_fullAtThird (twoSets rethrow)
    (onlySets_twoSets fun r => by cases r <;> trivial) (fresh oneRow) ⟨rfl, rfl, rfl⟩
    (givesUp_twoSets_rethrow oneRow oneRow)
  have hexec : exec (inTransaction fullAtThird ((twoSets rethrow).run fullAtThird)) (fresh oneRow) =
      (.error (.metadata "database or disk is full"),
        ⟨⟨oneRow, none, 4, deleteStuck⟩, 0, false⟩) := by
    rw [inTransaction, exec_bind_ok (exec_begin_fullAtThird oneRow), exec_bind, exec_tryCatch,
      exec_twoSets_rethrow]
    rfl
  rw [hexec] at h
  exact ⟨_, _, hexec, h.2⟩

/-- A body that goes on after its second set failed returns without its first one. -/
theorem swallowed_failure_loses_earlier_set :
    ¬ ∀ (faults : Faults) (body : Body), body.OnlySets → ∀ s : MetadataStore, s.Closed →
      match exec (inTransaction faults (body.run faults)) s with
      | (.ok _, t) => t.connection.committed =
          s.connection.committed.replaceAll (body.wrote faults (exec (beginTransaction faults) s).2)
      | (.error _, t) => t.connection.view = s.connection.committed := by
  intro h
  have hlost := h fullAtThird (twoSets fun _ => .done) (onlySets_twoSets fun _ => trivial)
    (fresh oneRow) ⟨rfl, rfl, rfl⟩
  have hwrote : (twoSets fun _ => .done).wrote fullAtThird
      ⟨⟨oneRow, some oneRow, 1, fun _ => false⟩, 1, true⟩ = [(0, ∅)] := by
    simp only [twoSets, Body.wrote, exec_firstSet_fullAtThird, exec_secondSet_fullAtThird,
      List.append_nil]
  have hexec : exec (inTransaction fullAtThird ((twoSets fun _ => .done).run fullAtThird))
      (fresh oneRow) = (.ok (), ⟨⟨oneRow, none, 4, deleteStuck⟩, 0, false⟩) := by
    rw [inTransaction, exec_bind_ok (exec_begin_fullAtThird oneRow), exec_bind, exec_tryCatch]
    simp only [twoSets, Body.run, exec_bind, exec_attempt, exec_firstSet_fullAtThird,
      exec_secondSet_fullAtThird, exec_pure]
    rfl
  rw [hexec, exec_begin_fullAtThird, hwrote] at hlost
  exact oneRow_ne_deleted hlost

end MetadataStore

end VectorDb.Storage
