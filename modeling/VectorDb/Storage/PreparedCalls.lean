import VectorDb.Storage.MetadataOutcome
import VectorDb.Storage.PreparedStatements

/-!
Every operation over prepared statements is one of `MetadataStore`'s written over them,
and what all code so written has in common: which statements it leaves stepped, that it
settles its transactions, and that it does the same once no step fails any more.
-/
set_option autoImplicit false

namespace VectorDb.Storage

open VectorDb.Lib Throwing

/-- The first code is the second written over the prepared statements. -/
inductive Implements : {α : Type} → (StepFaults → PreparedStore.Call α) →
    MetadataStore.Call α → Prop where
  | pure {α : Type} (a : α) : Implements (fun _ => pure a) (pure a)
  | throw {α : Type} (e : Error) : @Implements α (fun _ => throw e) (throw e)
  | bind {α β : Type} {x : StepFaults → PreparedStore.Call α} {y : MetadataStore.Call α}
      {f : α → StepFaults → PreparedStore.Call β} {g : α → MetadataStore.Call β} :
      Implements x y → (∀ a, Implements (f a) (g a)) →
      Implements (fun faults => x faults >>= fun a => f a faults) (y >>= g)
  | attempt {α : Type} {x : StepFaults → PreparedStore.Call α} {y : MetadataStore.Call α} :
      Implements x y → Implements (fun faults => Throwing.attempt (x faults)) (Throwing.attempt y)
  | run (statement : Prepared) (operation : String) (f : Tables → Tables) :
      Implements (fun faults => PreparedStore.run faults statement operation f)
        (MetadataStore.sql (runStatement quiet (some statement) f))
  | query {α : Type} (statement : Prepared) (operation : String) (count : Tables → Nat)
      (read : Tables → α) :
      Implements (fun faults => PreparedStore.query faults statement operation count read)
        (MetadataStore.sql (queryStatement quiet (some statement) read))
  | queryLocal {α : Type} (count : Tables → Nat) (read : Tables → α) :
      Implements (fun faults => PreparedStore.queryLocal faults count read)
        (MetadataStore.sql (queryStatement quiet none read))
  | locked {x : StepFaults → PreparedStore.Call Unit} {y : MetadataStore.Call Unit} :
      Implements x y →
      Implements (fun faults => PreparedStore.locked (x faults)) (MetadataStore.locked quiet y)

namespace Implements

theorem forM {α : Type} {f : α → StepFaults → PreparedStore.Call Unit}
    {g : α → MetadataStore.Call Unit} (h : ∀ a, Implements (f a) (g a)) (l : List α) :
    Implements (fun faults => l.forM fun a => f a faults) (l.forM g) := by
  induction l with
  | nil => exact .pure ()
  | cons a l ih => exact .bind (h a) fun _ => ih

theorem checkKeys (keys : List Text) :
    Implements (fun _ => PreparedStore.checkKeys keys) (MetadataStore.checkKeys keys) := by
  unfold PreparedStore.checkKeys MetadataStore.checkKeys
  split
  · exact .throw _
  · exact .pure _

theorem map {α β : Type} {x : StepFaults → PreparedStore.Call α} {y : MetadataStore.Call α}
    (h : Implements x y) (f : α → β) :
    Implements (fun faults => do return f (← x faults)) (do return f (← y)) :=
  .bind h fun _ => .pure _

end Implements

/-- The operation over `MetadataStore`, where a statement is one call. -/
def Operation.meaning : Operation → MetadataStore.Call Answer
  | .set id m => do MetadataStore.set quiet id m; return .done
  | .setKey id key value => do MetadataStore.setKey quiet id key value; return .done
  | .get id => do return .metadata (← MetadataStore.get quiet id)
  | .removeKey id key => do return .flag (← MetadataStore.removeKey quiet id key)
  | .remove id => do return .flag (← MetadataStore.remove quiet id)
  | .matching filter => do return .ids (← MetadataStore.matching filter quiet)
  | .vectorCount => do return .count (← MetadataStore.vectorCount quiet)
  | .rowCount => do return .count (← MetadataStore.rowCount quiet)
  | .keys => do return .keys (← MetadataStore.keys quiet)
  | .setConfig key value => do MetadataStore.setConfig quiet key value; return .done
  | .getConfig key => do return .value (← MetadataStore.getConfig quiet key)
  | .allConfig => do
    return .config (← MetadataStore.sql (queryStatement quiet none fun t => t.schemaInfo.toList))
  | .orphanedIds live => do return .ids (← MetadataStore.orphanedIds quiet live)
  | .removeOrphans live => do return .count (← MetadataStore.removeOrphans quiet live)

theorem implements_queryThenRun (count : Tables → Nat) (read : Tables → Bool)
    (statement : Prepared) (operation : String) (f : Tables → Tables) :
    Implements
      (fun faults => do
        let present ← PreparedStore.queryLocal faults count read
        if present then
          PreparedStore.run faults statement operation f
          return true
        return false)
      (do
        let present ← MetadataStore.sql (queryStatement quiet none read)
        if present then
          MetadataStore.sql (runStatement quiet (some statement) f)
          return true
        return false) := by
  refine .bind (.queryLocal count read) fun present => ?_
  cases present with
  | true => exact .bind (.run statement operation f) fun _ => .pure _
  | false => exact .pure _

theorem implements_removeOrphans (live : Finset VectorId) :
    Implements (fun faults => PreparedStore.removeOrphans faults live)
      (MetadataStore.removeOrphans quiet live) := by
  refine .bind (.queryLocal _ _) fun orphans => ?_
  cases orphans.isEmpty with
  | true => exact .pure _
  | false => exact .bind (.locked (.forM (fun _ => .run _ _ _) orphans)) fun _ => .pure _

theorem Operation.implements (op : Operation) : Implements op.run op.meaning := by
  cases op with
  | set id m =>
    refine .map (.bind (.checkKeys _) fun _ => .locked ?_) fun _ => Answer.done
    exact .bind (.run _ _ _) fun _ => .forM (fun _ => .run _ _ _) _
  | setKey id key value => exact .map (.bind (.checkKeys _) fun _ => .run _ _ _) fun _ => Answer.done
  | get id => exact .map (.query _ _ _ _) _
  | removeKey id key => exact .map (implements_queryThenRun _ _ _ _ _) _
  | remove id => exact .map (implements_queryThenRun _ _ _ _ _) _
  | matching filter => exact .map (.queryLocal _ _) _
  | vectorCount => exact .map (.queryLocal _ _) _
  | rowCount => exact .map (.queryLocal _ _) _
  | keys => exact .map (.queryLocal _ _) _
  | setConfig key value => exact .map (.run _ _ _) fun _ => Answer.done
  | getConfig key => exact .map (.query _ _ _ _) _
  | allConfig => exact .map (.queryLocal _ _) _
  | orphanedIds live => exact .map (.queryLocal _ _) _
  | removeOrphans live => exact .map (implements_removeOrphans live) _

def Program.meaning : Program → MetadataStore.Call Unit
  | .done => pure ()
  | .raise e => throw e
  | .call operation next => do
    let answer ← attempt operation.meaning
    (next answer).meaning
  | .transaction body next => do
    let outcome ← attempt (MetadataStore.locked quiet body.meaning)
    (next outcome).meaning

theorem Program.implements (program : Program) : Implements program.run program.meaning := by
  induction program with
  | done => exact .pure ()
  | raise e => exact .throw e
  | call operation next ih => exact .bind (.attempt operation.implements) ih
  | transaction body next ihb ihn => exact .bind (.attempt (.locked ihb)) ihn

def Invocation.meaning : Invocation → MetadataStore.Call Answer
  | .operation op => op.meaning
  | .transaction body => do MetadataStore.locked quiet body.meaning; return .done

theorem Invocation.implements (call : Invocation) : Implements call.run call.meaning := by
  cases call with
  | operation op => exact op.implements
  | transaction body => exact .map (.locked body.implements) fun _ => Answer.done

namespace PreparedStore

/-- The busy statements are the one whose step was the failing one. -/
def Marked (n : Nat) (p : PreparedStore) : Prop :=
  ∀ s, p.busy s = true ↔ p.steps[n]? = some (some s)

/-- In the middle of a prepared statement whose steps have all succeeded. -/
def Scanning (n : Nat) (s : Prepared) (p : PreparedStore) : Prop :=
  (∀ s', s' ≠ s → (p.busy s' = true ↔ p.steps[n]? = some (some s'))) ∧
    p.steps[n]? ≠ some (some s)

section Marked
variable {n : Nat} {detail : String}

@[simp] theorem exec_onStore {α : Type} (x : MetadataStore.Call α) (p : PreparedStore) :
    exec (onStore x) p = ((exec x p.store).1, { p with store := (exec x p.store).2 }) := rfl

theorem failsOnce_of_ne {m : Nat} (h : m ≠ n) : failsOnce n detail m = none := if_neg h

theorem getElem?_concat_of_ne {α : Type} {l : List α} (h : l.length ≠ n) (a : α) :
    (l ++ [a])[n]? = l[n]? := by
  rcases Nat.lt_or_gt_of_ne h with hlt | hlt
  · rw [List.getElem?_eq_none (by simpa using hlt), List.getElem?_eq_none (by omega)]
  · rw [List.getElem?_append_left hlt]

theorem bindParameter_marked (s : Prepared) (operation : String) :
    Triple (Marked n) (bindParameter s operation) (fun _ => Scanning n s) fun _ => Marked n := by
  intro p hp
  simp only [bindParameter, exec_bind, exec_get, exec_ite, exec_throw, exec_pure]
  cases hb : p.busy s with
  | true => exact hp
  | false => exact ⟨fun s' _ => hp s', fun hs => by rw [(hp s).mpr hs] at hb; cases hb⟩

theorem step_scanning (s : Prepared) :
    Triple (Scanning n s) (step (failsOnce n detail) (some s)) (fun _ => Scanning n s)
      fun _ => Marked n := by
  rintro p ⟨hothers, hs⟩
  simp only [step, exec_bind, exec_get, exec_set]
  by_cases hn : p.steps.length = n
  · have hnone : p.steps[n]? = none := List.getElem?_eq_none (by omega)
    simp only [failsOnce, hn, if_true, exec_throw]
    intro s'
    simp only [stepped_busy_some, stepped_steps, Function.update_apply, ← hn,
      List.getElem?_concat_length, Option.some.injEq]
    by_cases hs' : s' = s
    · simp [hs']
    · rw [if_neg hs', hothers s' hs', hnone]
      simp [Ne.symm hs']
  · simp only [failsOnce_of_ne hn, exec_pure]
    refine ⟨fun s' hs' => ?_, ?_⟩
    · simp only [stepped_busy_some, stepped_steps, Function.update_of_ne hs',
        getElem?_concat_of_ne hn]
      exact hothers s' hs'
    · simp only [stepped_steps, getElem?_concat_of_ne hn]
      exact hs

theorem step_local : Maintains (Marked n) (step (failsOnce n detail) none) := by
  intro p hp
  simp only [step, exec_bind, exec_get, exec_set]
  by_cases hn : p.steps.length = n
  · simp only [failsOnce, hn, if_true, exec_throw]
    intro s
    simp only [stepped_busy_none, stepped_steps, hp s, ← hn, List.getElem?_concat_length]
    simp
  · simp only [failsOnce_of_ne hn, exec_pure]
    intro s
    simp only [stepped_busy_none, stepped_steps, getElem?_concat_of_ne hn]
    exact hp s

theorem reset_marked (s : Prepared) :
    Triple (Scanning n s) (reset s) (fun _ => Marked n) fun _ => Marked n := by
  rintro p ⟨hothers, hs⟩ s'
  simp only [Function.update_apply]
  by_cases hs' : s' = s
  · simp [hs', hs]
  · rw [if_neg hs']
    exact hothers s' hs'

theorem stepRows_scanning (s : Prepared) (count : Nat) :
    Triple (Scanning n s) (stepRows (failsOnce n detail) (some s) count) (fun _ => Scanning n s)
      fun _ => Marked n :=
  Triple.forM (H := fun (_ : Unit) => Scanning n s) (fun b _ => b) (fun _ _ => step_scanning s) ()

theorem marked_run (s : Prepared) (operation : String) (f : Tables → Tables) :
    Maintains (Marked n) (run (failsOnce n detail) s operation f) := by
  refine Triple.maintains (Triple.bind (bindParameter_marked s operation) fun _ => ?_)
  refine Triple.bind (step_scanning s) fun _ => ?_
  exact Triple.bind (Q := fun _ => Scanning n s) (fun p hp => hp) fun _ => reset_marked s

theorem marked_query {α : Type} (s : Prepared) (operation : String) (count : Tables → Nat)
    (read : Tables → α) : Maintains (Marked n) (query (failsOnce n detail) s operation count read) := by
  refine Triple.maintains (Triple.bind (bindParameter_marked s operation) fun _ => ?_)
  intro p hp
  refine Triple.bind (stepRows_scanning s (count p.store.connection.view)) (fun _ => ?_) p hp
  exact Triple.bind (reset_marked s) fun _ => Triple.pure fun _ h => h

theorem marked_queryLocal {α : Type} (count : Tables → Nat) (read : Tables → α) :
    Maintains (Marked n) (queryLocal (failsOnce n detail) count read) :=
  Maintains.getBind fun p hp =>
    Maintains.bind (Maintains.forM fun _ _ => step_local) (fun _ => Maintains.pure _) p hp

theorem marked_onStore {α : Type} (x : MetadataStore.Call α) : Maintains (Marked n) (onStore x) :=
  fun _ hp => hp

theorem marked_locked {body : Call Unit} (hb : Maintains (Marked n) body) :
    Maintains (Marked n) (locked body) :=
  Maintains.bind (marked_onStore _) fun _ => Maintains.bind
    (Maintains.tryCatch hb fun _ => Maintains.bind (marked_onStore _) fun _ => Maintains.throw _)
    fun _ => marked_onStore _

end Marked

section Grown
variable {faults : StepFaults} {l : List (Option Prepared)}

/-- The steps so far begin with these. -/
def Grown (l : List (Option Prepared)) (p : PreparedStore) : Prop := l <+: p.steps

theorem grown_bindParameter (s : Prepared) (operation : String) :
    Maintains (Grown l) (bindParameter s operation) :=
  Maintains.getBind fun _ hp => by
    rw [exec_ite]
    split <;> exact hp

theorem grown_step (s : Option Prepared) : Maintains (Grown l) (step faults s) := by
  intro p hp
  simp only [step, exec_bind, exec_get, exec_set]
  cases faults p.steps.length <;> exact hp.trans (List.prefix_append _ _)

theorem grown_write (f : Tables → Tables) : Maintains (Grown l) (write f) := fun _ hp => hp

theorem grown_reset (s : Prepared) : Maintains (Grown l) (reset s) := fun _ hp => hp

theorem grown_stepRows (s : Option Prepared) (count : Nat) :
    Maintains (Grown l) (stepRows faults s count) := Maintains.forM fun _ _ => grown_step s

theorem grown_onStore {α : Type} (x : MetadataStore.Call α) : Maintains (Grown l) (onStore x) :=
  fun _ hp => hp

end Grown

section Settled
variable {faults : StepFaults} {d : Nat}

/-- However the call ends, it ends at the depth it began at or with everything
rolled back. -/
def Settles {α : Type} (x : Call α) : Prop :=
  ∀ d, Maintains (fun p => MetadataStore.Keeps d p.store) x

theorem Triple.onStore {α : Type} {P : MetadataStore → Prop} {x : MetadataStore.Call α}
    {Q : α → MetadataStore → Prop} {E : Error → MetadataStore → Prop} (h : Triple P x Q E) :
    Triple (fun p => P p.store) (PreparedStore.onStore x) (fun a p => Q a p.store)
      fun e p => E e p.store := by
  intro p hp
  have hx := h p.store hp
  rw [exec_onStore]
  rcases hr : exec x p.store with ⟨r, s⟩
  rw [hr] at hx
  cases r <;> exact hx

theorem settles_bindParameter (s : Prepared) (operation : String) :
    Settles (bindParameter s operation) := fun _ => Maintains.getBind fun _ hp => by
  rw [exec_ite]
  split <;> exact hp

theorem settles_step (s : Option Prepared) : Settles (step faults s) := by
  intro d p hp
  simp only [step, exec_bind, exec_get, exec_set]
  cases faults p.steps.length <;> exact hp

theorem settles_write (f : Tables → Tables) : Settles (write f) := by
  rintro d p ⟨⟨hheld, hopened⟩, hd⟩
  exact ⟨⟨hheld, (Connection.write_pending_isSome _ _).trans hopened⟩, hd⟩

theorem settles_reset (s : Prepared) : Settles (reset s) := fun _ _ hp => hp

theorem settles_stepRows (s : Option Prepared) (count : Nat) : Settles (stepRows faults s count) :=
  fun d => Maintains.forM fun _ _ => settles_step s d

theorem settles_locked {body : Call Unit} (hb : Settles body) : Settles (locked body) := by
  have hq : TransactionCallsSucceed quiet := fun _ => ⟨rfl, rfl, rfl⟩
  have hbody : ∀ d, Triple (fun p : PreparedStore => p.store.Paired ∧ p.store.depth = d)
      (locked body) (fun _ p => MetadataStore.Keeps d p.store)
      (fun _ p => MetadataStore.Keeps d p.store) := by
    intro d
    refine Triple.bind ((Triple.onStore (MetadataStore.beginLocked_deeper hq d)).conseq
      (fun _ h => h) (fun _ _ h => h) fun _ _ h => h.elim) fun _ => ?_
    refine Triple.bind (Q := fun _ p => MetadataStore.Keeps (d + 1) p.store) ?_ fun _ => ?_
    · refine Triple.tryCatch ((hb (d + 1)).triple.conseq (fun p h => ⟨h.1, .inl h.2⟩)
        (fun _ _ h => h) fun _ _ h => h) fun e => ?_
      rintro p ⟨hp, -⟩
      obtain ⟨t, ht, hclosed, -⟩ := MetadataStore.rollbackLocked_paired hq hp
      simp only [exec_bind, rollbackLocked, exec_onStore, ht, exec_throw]
      exact hclosed.keeps d
    · exact (Triple.onStore (MetadataStore.commitLocked_keeps hq d)).conseq (fun _ h => h)
        (fun _ _ h => h) fun _ _ h => h.elim
  rintro d p ⟨hp, hd | hd⟩
  · exact (hbody d).after ⟨hp, hd⟩
  · exact ((MetadataStore.keeps_zero_iff.mp ((hbody 0).after ⟨hp, hd⟩)).keeps d)

end Settled

section Renewed
variable {faults : StepFaults}

/-- The same tables and the same transaction. -/
def SameTables (s t : MetadataStore) : Prop :=
  s.depth = t.depth ∧ s.transaction = t.transaction ∧
    s.connection.committed = t.connection.committed ∧ s.connection.pending = t.connection.pending

theorem sameTables_iff {s t : MetadataStore} :
    SameTables s t ↔
      ∃ clock stuck, t = { s with connection := { s.connection with clock, stuck } } := by
  obtain ⟨⟨c, p, k, l⟩, d, b⟩ := s
  obtain ⟨⟨c', p', k', l'⟩, d', b'⟩ := t
  simp only [SameTables, MetadataStore.mk.injEq, Connection.mk.injEq]
  constructor
  · rintro ⟨rfl, rfl, rfl, rfl⟩
    exact ⟨k', l', ⟨rfl, rfl, rfl, rfl⟩, rfl, rfl⟩
  · rintro ⟨_, _, ⟨rfl, rfl, _⟩, rfl, rfl⟩
    exact ⟨rfl, rfl, rfl, rfl⟩

theorem alike_beginLocked :
    Alike SameTables (MetadataStore.beginLocked quiet) (MetadataStore.beginLocked quiet) := by
  intro s t h
  obtain ⟨clock, stuck, rfl⟩ := sameTables_iff.mp h
  obtain ⟨⟨c, p, k, l⟩, d, b⟩ := s
  cases d <;> cases p <;> cases b <;>
    simp [MetadataStore.beginLocked, MetadataStore.destroyTransaction, MetadataStore.sql,
      executeBegin, executeRollback, exec_bind, exec_tryCatch, exec_sqlCall, quiet, SameTables,
      Connection.tick]

theorem alike_commitLocked :
    Alike SameTables (MetadataStore.commitLocked quiet) (MetadataStore.commitLocked quiet) := by
  intro s t h
  obtain ⟨clock, stuck, rfl⟩ := sameTables_iff.mp h
  obtain ⟨⟨c, p, k, l⟩, d, b⟩ := s
  rcases d with _ | _ | d <;> cases p <;> cases b <;>
    simp [MetadataStore.commitLocked, MetadataStore.sql, executeCommit, exec_bind, exec_sqlCall,
      quiet, SameTables, Connection.tick]

theorem alike_rollbackLocked :
    Alike SameTables (MetadataStore.rollbackLocked quiet) (MetadataStore.rollbackLocked quiet) := by
  intro s t h
  obtain ⟨clock, stuck, rfl⟩ := sameTables_iff.mp h
  obtain ⟨⟨c, p, k, l⟩, d, b⟩ := s
  cases p <;> cases b <;>
    simp [MetadataStore.rollbackLocked, MetadataStore.destroyTransaction, MetadataStore.sql,
      executeRollback, exec_bind, exec_tryCatch, exec_sqlCall, quiet, SameTables, Connection.tick]

/-- All prepared statements are reset, no step is going to fail, and the tables are
those of the store without prepared statements. -/
structure Renewed (faults : StepFaults) (p : PreparedStore) (s : MetadataStore) : Prop where
  tables : SameTables p.store s
  idle : ∀ s, p.busy s = false
  past : ∀ m, p.steps.length ≤ m → faults m = none

theorem alike_onStore {α : Type} {x y : MetadataStore.Call α} (h : Alike SameTables x y) :
    Alike (Renewed faults) (onStore x) y := by
  rintro p s ⟨ht, hi, hp⟩
  obtain ⟨hr, hs⟩ := h p.store s ht
  exact ⟨hr, hs, hi, hp⟩

theorem alike_locked {x : Call Unit} {y : MetadataStore.Call Unit}
    (h : Alike (Renewed faults) x y) :
    Alike (Renewed faults) (locked x) (MetadataStore.locked quiet y) := by
  refine Alike.bind (alike_onStore alike_beginLocked) fun _ => Alike.bind
    (Alike.tryCatch h fun e => ?_) fun _ => alike_onStore alike_commitLocked
  exact Alike.bind (alike_onStore alike_rollbackLocked) fun _ => Alike.throw e

theorem exec_bindParameter_idle {p : PreparedStore} {s : Prepared} (hs : p.busy s = false)
    (operation : String) : exec (bindParameter s operation) p = (.ok (), p) := by
  simp [bindParameter, exec_bind, hs]

theorem exec_step_past (s : Option Prepared) {p : PreparedStore}
    (hp : ∀ m, p.steps.length ≤ m → faults m = none) :
    exec (step faults s) p = (.ok (), p.stepped s) := by
  simp only [step, exec_bind, exec_get, exec_set, hp _ (Nat.le_refl _), exec_pure]

theorem past_of_grown {l l' : List (Option Prepared)} (h : l <+: l')
    (hp : ∀ m, l.length ≤ m → faults m = none) : ∀ m, l'.length ≤ m → faults m = none :=
  fun m hm => hp m (Nat.le_trans h.length_le hm)

/-- Steps that do not fail. -/
theorem exec_stepRows_past (s : Option Prepared) (count : Nat) {p : PreparedStore}
    (hp : ∀ m, p.steps.length ≤ m → faults m = none) :
    ∃ q, exec (stepRows faults s count) p = (.ok (), q) ∧ q.store = p.store ∧
      (∀ s', some s' ≠ s → q.busy s' = p.busy s') ∧ p.steps <+: q.steps := by
  induction count generalizing p with
  | zero => exact ⟨p, rfl, rfl, fun _ _ => rfl, List.prefix_rfl⟩
  | succ count ih =>
    have hnext : p.steps <+: (p.stepped s).steps := List.prefix_append _ _
    obtain ⟨q, hq, hstore, hbusy, hgrown⟩ := ih (past_of_grown hnext hp)
    refine ⟨q, ?_, hstore, fun s' hs' => ?_, hnext.trans hgrown⟩
    · rw [stepRows, List.replicate_succ, List.forM, exec_bind_ok (exec_step_past s hp)]
      exact hq
    · rw [hbusy s' hs']
      cases s with
      | none => rfl
      | some s => exact Function.update_of_ne (fun h => hs' (by rw [h])) _ _

theorem SameTables.view {s t : MetadataStore} (h : SameTables s t) :
    s.connection.view = t.connection.view := by
  simp only [Connection.view, h.2.2.1, h.2.2.2]

theorem SameTables.write {s t : MetadataStore} (h : SameTables s t) (u : Tables) :
    SameTables { s with connection := s.connection.write u }
      { t with connection := t.connection.tick.write u } := by
  obtain ⟨clock, stuck, rfl⟩ := sameTables_iff.mp h
  obtain ⟨⟨c, p, k, l⟩, d, b⟩ := s
  cases p <;> simp [SameTables, Connection.write, Connection.tick]

theorem SameTables.tick {s t : MetadataStore} (h : SameTables s t) :
    SameTables s { t with connection := t.connection.tick } := h

theorem alike_run (s : Prepared) (operation : String) (f : Tables → Tables) :
    Alike (Renewed faults) (run faults s operation f)
      (MetadataStore.sql (runStatement quiet (some s) f)) := by
  rintro p t ⟨ht, hi, hp⟩
  rw [run, exec_bind_ok (exec_bindParameter_idle (hi s) operation),
    exec_bind_ok (exec_step_past (some s) hp)]
  simp only [MetadataStore.sql, exec_on, exec_runStatement, quiet_quiet.failure]
  refine ⟨rfl, ?_, fun s' => ?_, past_of_grown (List.prefix_append _ _) hp⟩
  · rw [← ht.view]
    exact ht.write _
  · change Function.update (Function.update p.busy s true) s false s' = false
    simp only [Function.update_apply]
    split
    · rfl
    · exact hi s'

theorem alike_query {α : Type} (s : Prepared) (operation : String) (count : Tables → Nat)
    (read : Tables → α) :
    Alike (Renewed faults) (query faults s operation count read)
      (MetadataStore.sql (queryStatement quiet (some s) read)) := by
  rintro p t ⟨ht, hi, hp⟩
  obtain ⟨q, hq, hstore, hbusy, hgrown⟩ :=
    exec_stepRows_past (some s) (count p.store.connection.view) hp
  rw [query, exec_bind_ok (exec_bindParameter_idle (hi s) operation), exec_bind_ok (exec_get p),
    exec_bind_ok hq]
  simp only [MetadataStore.sql, exec_on, exec_queryStatement, quiet_quiet.failure]
  refine ⟨congrArg Except.ok (congrArg read ht.view), ?_, fun s' => ?_, past_of_grown hgrown hp⟩
  · exact hstore ▸ ht.tick
  · change Function.update q.busy s false s' = false
    rw [Function.update_apply]
    split
    next h => rfl
    next h => exact (hbusy s' fun he => h (Option.some.inj he)).trans (hi s')

theorem alike_queryLocal {α : Type} (count : Tables → Nat) (read : Tables → α) :
    Alike (Renewed faults) (queryLocal faults count read)
      (MetadataStore.sql (queryStatement quiet none read)) := by
  rintro p t ⟨ht, hi, hp⟩
  obtain ⟨q, hq, hstore, hbusy, hgrown⟩ :=
    exec_stepRows_past none (count p.store.connection.view) hp
  rw [queryLocal, exec_bind_ok (exec_get p), exec_bind_ok hq]
  simp only [MetadataStore.sql, exec_on, exec_queryStatement, quiet_quiet.failure]
  refine ⟨congrArg Except.ok (congrArg read ht.view), ?_, fun s' => ?_, past_of_grown hgrown hp⟩
  · exact hstore ▸ ht.tick
  · exact (hbusy s' (by simp)).trans (hi s')

end Renewed

end PreparedStore

namespace Implements

open PreparedStore

variable {α : Type} {x : StepFaults → Call α} {y : MetadataStore.Call α}

/-- Whatever a call does, only the statement hit by the failing step is left busy. -/
theorem marked (h : Implements x y) {n : Nat} (detail : String) : Maintains (Marked n) (x (failsOnce n detail)) := by
  induction h with
  | pure a => exact Maintains.pure a
  | throw e => exact Maintains.throw e
  | bind _ _ ihx ihf => exact Maintains.bind ihx ihf
  | attempt _ ih => exact (Triple.attempt ih.triple).maintains
  | run s operation f => exact marked_run s operation f
  | query s operation count read => exact marked_query s operation count read
  | queryLocal count read => exact marked_queryLocal count read
  | locked _ ih => exact marked_locked ih

/-- No call takes a step back. -/
theorem grown {faults : StepFaults} {l : List (Option Prepared)} (h : Implements x y) : Maintains (Grown l) (x faults) := by
  induction h with
  | pure a => exact Maintains.pure a
  | throw e => exact Maintains.throw e
  | bind _ _ ihx ihf => exact Maintains.bind ihx ihf
  | attempt _ ih => exact (Triple.attempt ih.triple).maintains
  | run s operation f =>
    refine Maintains.bind (grown_bindParameter s operation) fun _ => ?_
    exact Maintains.bind (grown_step _) fun _ => Maintains.bind (grown_write f) fun _ => grown_reset s
  | query s operation count read =>
    refine Maintains.bind (grown_bindParameter s operation) fun _ => Maintains.getBind fun p hp => ?_
    exact Maintains.bind (grown_stepRows _ _)
      (fun _ => Maintains.bind (grown_reset s) fun _ => Maintains.pure _) p hp
  | queryLocal count read =>
    exact Maintains.getBind fun p hp =>
      Maintains.bind (grown_stepRows _ _) (fun _ => Maintains.pure _) p hp
  | locked _ ih =>
    exact Maintains.bind (grown_onStore _) fun _ => Maintains.bind
      (Maintains.tryCatch ih fun _ => Maintains.bind (grown_onStore _) fun _ => Maintains.throw _)
      fun _ => grown_onStore _

theorem settles {faults : StepFaults} (h : Implements x y) : Settles (x faults) := by
  induction h with
  | pure a => exact fun _ => Maintains.pure a
  | throw e => exact fun _ => Maintains.throw e
  | bind _ _ ihx ihf => exact fun d => Maintains.bind (ihx d) fun a => ihf a d
  | attempt _ ih => exact fun d => (Triple.attempt (ih d).triple).maintains
  | run s operation f =>
    exact fun d => Maintains.bind (settles_bindParameter s operation d) fun _ =>
      Maintains.bind (settles_step _ d) fun _ =>
      Maintains.bind (settles_write f d) fun _ => settles_reset s d
  | query s operation count read =>
    refine fun d => Maintains.bind (settles_bindParameter s operation d) fun _ =>
      Maintains.getBind fun p hp => ?_
    exact Maintains.bind (settles_stepRows _ _ d)
      (fun _ => Maintains.bind (settles_reset s d) fun _ => Maintains.pure _) p hp
  | queryLocal count read =>
    exact fun d => Maintains.getBind fun p hp =>
      Maintains.bind (settles_stepRows _ _ d) (fun _ => Maintains.pure _) p hp
  | locked _ ih => exact settles_locked ih

/-- With the failing step behind it, the code does what it is written after. -/
theorem alike {faults : StepFaults} (h : Implements x y) :
    Alike (Renewed faults) (x faults) y := by
  induction h with
  | pure a => exact Alike.pure a
  | throw e => exact Alike.throw e
  | bind _ _ ihx ihf => exact Alike.bind ihx ihf
  | attempt _ ih => exact ih.attempt
  | run s operation f => exact alike_run s operation f
  | query s operation count read => exact alike_query s operation count read
  | queryLocal count read => exact alike_queryLocal count read
  | locked _ ih => exact alike_locked ih

end Implements

/-- The operation is thrown back for an empty key. -/
def Operation.Refused : Operation → Prop
  | .set _ m => m.keys.any List.isEmpty = true
  | .setKey _ key _ => key.isEmpty = true
  | _ => False

section Returns
variable {c : Tables}

open MetadataStore (Holds)

theorem not_not_quiet {P : Prop} (h : ¬ quiet.Quiet) : P := absurd quiet_quiet h

theorem returns_run {statement : Option Prepared} (f : Tables → Tables) :
    Triple (Holds c) (MetadataStore.sql (runStatement quiet statement f)) (fun _ => Holds (f c))
      fun _ _ => False :=
  (MetadataStore.runStatement_holds quiet f).conseq (fun _ h => h) (fun _ _ h => h)
    fun _ _ h => not_not_quiet h.2

theorem returns_query {α : Type} {statement : Option Prepared} (read : Tables → α) :
    Triple (Holds c) (MetadataStore.sql (queryStatement quiet statement read))
      (fun a s => a = read c ∧ Holds c s) fun _ _ => False :=
  (MetadataStore.queryStatement_holds quiet read).conseq (fun _ h => h) (fun _ _ h => h)
    fun _ _ h => not_not_quiet h.2

theorem returns_queryThenRun (read : Tables → Bool) {statement : Option Prepared}
    (f : Tables → Tables) :
    Triple (Holds c)
      (do
        let present ← MetadataStore.sql (queryStatement quiet none read)
        if present then
          MetadataStore.sql (runStatement quiet statement f)
          return true
        return false)
      (fun _ _ => True) fun _ _ => False := by
  refine Triple.bind (returns_query read) fun present => ?_
  cases present with
  | true =>
    exact Triple.bind ((returns_run f).conseq (fun _ h => h.2) (fun _ _ h => h) fun _ _ h => h)
      fun _ => Triple.pure fun _ _ => trivial
  | false => exact Triple.pure fun _ _ => trivial

theorem returns_removeOrphans (live : Finset VectorId) :
    Triple (Holds c) (MetadataStore.removeOrphans quiet live) (fun _ _ => True)
      fun _ _ => False := by
  refine Triple.bind (returns_query _) fun orphans => ?_
  cases orphans.isEmpty with
  | true => exact Triple.pure fun _ _ => trivial
  | false =>
    have hbody := Triple.forM (l := orphans) (H := fun t => MetadataStore.Within c (· = t))
      (fun (t : Tables) id => t.deleteByVector id)
      (fun t id => @MetadataStore.runStatement_within quiet c (some .deleteByVector)
        (·.deleteByVector id) t) c
    refine Triple.bind ((MetadataStore.locked_holds quiet hbody).conseq (fun _ h => h.2)
      (fun _ _ h => h) fun _ _ h => not_not_quiet h.2) fun _ => Triple.pure fun _ _ => trivial

theorem Operation.returns (op : Operation) :
    Triple (Holds c) op.meaning (fun _ _ => True) fun _ _ => op.Refused := by
  have hmap : ∀ {α : Type} {x : MetadataStore.Call α} {Q : α → MetadataStore → Prop} (f : α → Answer),
      Triple (Holds c) x Q (fun _ _ => False) →
      Triple (Holds c) (do return f (← x)) (fun _ _ => True) fun _ _ => op.Refused :=
    fun f h => Triple.bind (h.conseq (fun _ h => h) (fun _ _ h => h) fun _ _ h => h.elim)
      fun _ => Triple.pure fun _ _ => trivial
  cases op with
  | set id m =>
    refine Triple.bind ((MetadataStore.set_holds quiet id m).conseq (fun _ h => h)
      (fun _ _ h => h) fun _ _ h => ?_) fun _ => Triple.pure fun _ _ => trivial
    exact h.elim (fun h => h.2) fun h => not_not_quiet h.2
  | setKey id key value =>
    refine Triple.bind (Triple.bind ((MetadataStore.checkKeys_spec [key]).conseq (fun _ h => h)
      (fun _ _ h => h) fun _ _ h => by simpa [Refused] using h.2) fun _ =>
      (returns_run _).conseq (fun _ h => h) (fun _ _ h => h) fun _ _ h => h.elim)
      fun _ => Triple.pure fun _ _ => trivial
  | get id => exact hmap _ (returns_query _)
  | removeKey id key => exact hmap _ (returns_queryThenRun _ _)
  | remove id => exact hmap _ (returns_queryThenRun _ _)
  | matching filter => exact hmap _ (returns_query _)
  | vectorCount => exact hmap _ (returns_query _)
  | rowCount => exact hmap _ (returns_query _)
  | keys => exact hmap _ (returns_query _)
  | setConfig key value => exact hmap (fun _ => Answer.done) (returns_run _)
  | getConfig key => exact hmap _ (returns_query _)
  | allConfig => exact hmap _ (returns_query _)
  | orphanedIds live => exact hmap _ (returns_query _)
  | removeOrphans live => exact hmap _ (returns_removeOrphans live)

end Returns

end VectorDb.Storage
