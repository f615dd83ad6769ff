import VectorDb.Storage.PreparedCalls

/-!
What one failing step leaves behind: a prepared statement it hit stays stepped for the
life of the store, and a statement local to its operation leaves no trace.
-/
set_option autoImplicit false

namespace VectorDb.Storage

open VectorDb.Lib Throwing PreparedStore

/-- What happens after a `BEGIN` that succeeded. -/
def PreparedStore.inside (f : PreparedStore → List PreparedStore) (p : PreparedStore) :
    List PreparedStore :=
  match exec beginLocked p with
  | (.ok _, q) => f q
  | (.error _, _) => []

/-- The states in which the operations of a body return or throw. -/
def Program.boundaries (faults : StepFaults) : Program → PreparedStore → List PreparedStore
  | .done, _ => []
  | .raise _, _ => []
  | .call operation next, p =>
    let (answer, q) := exec (operation.run faults) p
    q :: (next answer).boundaries faults q
  | .transaction body next, p =>
    let (outcome, q) := exec (inTransaction (body.run faults)) p
    inside (body.boundaries faults) p ++ q :: (next outcome).boundaries faults q

/-- The states in which the call and the operations inside it return or throw. -/
def Invocation.boundaries (faults : StepFaults) : Invocation → PreparedStore → List PreparedStore
  | .operation op, p => [(exec (op.run faults) p).2]
  | .transaction body, p =>
    inside (body.boundaries faults) p ++ [(exec (inTransaction (body.run faults)) p).2]

/-- Between operations every prepared statement is reset; and a call made after the
failing step succeeds, unless it is refused for its arguments or gives up by itself, and
gives what it gives on a store just opened on the same committed tables. -/
def Unpoisoned (n : Nat) (faults : StepFaults) : List Invocation → PreparedStore → Prop
  | [], _ => True
  | call :: calls, p =>
    (∀ q ∈ call.boundaries faults p, ∀ s, q.busy s = false) ∧
      (n < p.steps.length →
        (exec (call.run faults) p).1 =
            (exec (call.run neverFails) (opened p.store.connection.committed)).1 ∧
          ∀ op, call = .operation op → ¬ op.Refused →
            ∃ answer, (exec (call.run faults) p).1 = .ok answer) ∧
      Unpoisoned n faults calls (exec (call.run faults) p).2

section Boundaries
variable {faults : StepFaults} {p q : PreparedStore}

theorem steps_locked {body : PreparedStore.Call Unit} (h : exec beginLocked p = (.ok (), q)) :
    (exec (locked body) p).2.steps = (exec body q).2.steps := by
  rw [locked, exec_bind_ok h, exec_bind, exec_tryCatch]
  rcases exec body q with ⟨r, q'⟩
  cases r with
  | ok a => rfl
  | error e =>
    simp only [rollbackLocked, exec_bind, exec_onStore]
    rcases exec (MetadataStore.rollbackLocked quiet) q'.store with ⟨r', s⟩
    cases r' <;> rfl

theorem mem_inside {f : PreparedStore → List PreparedStore} (h : q ∈ inside f p) :
    ∃ p', exec beginLocked p = (.ok (), p') ∧ q ∈ f p' := by
  unfold inside at h
  rcases hb : exec beginLocked p with ⟨r, p'⟩
  rw [hb] at h
  cases r with
  | ok a => exact ⟨p', rfl, h⟩
  | error e => cases h

theorem grown_run {call : PreparedStore.Call Unit} (h : ∀ l, Maintains (Grown l) call) :
    p.steps <+: (exec call p).2.steps := h p.steps p List.prefix_rfl

theorem Program.grown_boundaries (program : Program) :
    ∀ q ∈ program.boundaries faults p, q.steps <+: (exec (program.run faults) p).2.steps := by
  induction program generalizing p with
  | done => exact fun q hq => by cases hq
  | raise e => exact fun q hq => by cases hq
  | call operation next ih =>
    intro q hq
    simp only [Program.run, exec_bind, exec_attempt]
    rcases List.mem_cons.mp hq with rfl | hq
    · exact grown_run fun l => (next _).implements.grown
    · exact ih _ q hq
  | transaction body next ihb ihn =>
    intro q hq
    simp only [Program.run, exec_bind, exec_attempt]
    rcases List.mem_append.mp hq with hq | hq
    · obtain ⟨p', hbegin, hq⟩ := mem_inside hq
      refine (ihb q hq).trans ?_
      rw [← steps_locked hbegin]
      exact grown_run fun l => (next _).implements.grown
    · rcases List.mem_cons.mp hq with rfl | hq
      · exact grown_run fun l => (next _).implements.grown
      · exact ihn _ q hq

theorem Invocation.grown_boundaries (call : Invocation) :
    ∀ q ∈ call.boundaries faults p, q.steps <+: (exec (call.run faults) p).2.steps := by
  cases call with
  | operation op =>
    intro q hq
    rw [List.mem_singleton.mp hq]
    exact List.prefix_rfl
  | transaction body =>
    intro q hq
    rw [Invocation.run, exec_bind_pure]
    rcases List.mem_append.mp hq with hq | hq
    · obtain ⟨p', hbegin, hq⟩ := mem_inside hq
      rw [inTransaction, steps_locked hbegin]
      exact body.grown_boundaries q hq
    · rw [List.mem_singleton.mp hq]

theorem Invocation.last_boundary (call : Invocation) :
    (exec (call.run faults) p).2 ∈ call.boundaries faults p := by
  cases call with
  | operation op => exact List.mem_singleton.mpr rfl
  | transaction body =>
    rw [Invocation.run, exec_bind_pure]
    exact List.mem_append_right _ (List.mem_singleton.mpr rfl)

end Boundaries

section Marked
variable {n : Nat} {detail : String} {p : PreparedStore}

theorem Program.marked_boundaries (program : Program) (hp : Marked n p) :
    ∀ q ∈ program.boundaries (failsOnce n detail) p, Marked n q := by
  induction program generalizing p with
  | done => exact fun q hq => by cases hq
  | raise e => exact fun q hq => by cases hq
  | call operation next ih =>
    intro q hq
    have hnext := operation.implements.marked detail p hp
    rcases List.mem_cons.mp hq with rfl | hq
    · exact hnext
    · exact ih _ hnext q hq
  | transaction body next ihb ihn =>
    intro q hq
    have hnext := (Implements.locked body.implements).marked detail p hp
    rcases List.mem_append.mp hq with hq | hq
    · obtain ⟨p', hbegin, hq⟩ := mem_inside hq
      have hp' := marked_onStore (MetadataStore.beginLocked quiet) p hp
      exact ihb (by rw [← show (exec beginLocked p).2 = p' by rw [hbegin]]; exact hp') q hq
    · rcases List.mem_cons.mp hq with rfl | hq
      · exact hnext
      · exact ihn _ hnext q hq

theorem Invocation.marked_boundaries (call : Invocation) (hp : Marked n p) :
    ∀ q ∈ call.boundaries (failsOnce n detail) p, Marked n q := by
  cases call with
  | operation op =>
    intro q hq
    rw [List.mem_singleton.mp hq]
    exact op.implements.marked _ p hp
  | transaction body =>
    intro q hq
    rcases List.mem_append.mp hq with hq | hq
    · obtain ⟨p', hbegin, hq⟩ := mem_inside hq
      have hp' := marked_onStore (MetadataStore.beginLocked quiet) p hp
      exact body.marked_boundaries
        (by rw [← show (exec beginLocked p).2 = p' by rw [hbegin]]; exact hp') q hq
    · rw [List.mem_singleton.mp hq]
      exact (Implements.locked body.implements).marked _ p hp

end Marked

section Runs
variable {n : Nat} {detail : String} {p : PreparedStore}

theorem marked_opened (t : Tables) : Marked n (opened t) := fun _ => by simp [opened]

theorem grown_runAll (faults : StepFaults) (calls : List Invocation) (p : PreparedStore) :
    p.steps <+: (runAll faults calls p).steps := by
  induction calls generalizing p with
  | nil => exact List.prefix_rfl
  | cons call calls ih =>
    exact (call.implements.grown (l := p.steps) p List.prefix_rfl).trans (ih _)

theorem failsOnce_past (hpast : n < p.steps.length) :
    ∀ m, p.steps.length ≤ m → failsOnce n detail m = none :=
  fun _ hm => failsOnce_of_ne (by omega)

/-- Once the failing step is over, a call on a store at rest does what it does on a
store just opened. -/
theorem Invocation.run_renewed (call : Invocation) (hclosed : p.store.Closed)
    (hidle : ∀ s, p.busy s = false) (hpast : n < p.steps.length) :
    (exec (call.run (failsOnce n detail)) p).1 =
      (exec (call.run neverFails) (opened p.store.connection.committed)).1 := by
  have htables : SameTables p.store (MetadataStore.fresh p.store.connection.committed) :=
    ⟨hclosed.depth, hclosed.transaction, rfl, hclosed.pending⟩
  have hrun := call.implements.alike p _ ⟨htables, hidle, @failsOnce_past n detail p hpast⟩
  have hfresh := call.implements.alike (opened p.store.connection.committed) _
    ⟨⟨rfl, rfl, rfl, rfl⟩, fun _ => rfl, fun _ _ => rfl⟩
  exact hrun.1.trans hfresh.1.symm

theorem Operation.run_returns (op : Operation) (hclosed : p.store.Closed)
    (hidle : ∀ s, p.busy s = false) (hpast : n < p.steps.length) (hop : ¬ op.Refused) :
    ∃ answer, (exec (op.run (failsOnce n detail)) p).1 = .ok answer := by
  have hrun := op.implements.alike p p.store
    ⟨⟨rfl, rfl, rfl, rfl⟩, hidle, @failsOnce_past n detail p hpast⟩
  have hreturns := op.returns (c := p.store.connection.committed) p.store ⟨hclosed, rfl⟩
  rw [hrun.1]
  rcases hr : exec op.meaning p.store with ⟨r, s⟩
  rw [hr] at hreturns
  cases r with
  | ok answer => exact ⟨answer, rfl⟩
  | error e => exact absurd hreturns hop

theorem Invocation.closed_run {faults : StepFaults} (call : Invocation) (hclosed : p.store.Closed) :
    (exec (call.run faults) p).2.store.Closed :=
  MetadataStore.keeps_zero_iff.mp
    (call.implements.settles 0 p (MetadataStore.keeps_zero_iff.mpr hclosed))

theorem unpoisoned_of_unshared (calls : List Invocation) (hp : Marked n p)
    (hclosed : p.store.Closed)
    (h : ∀ s, (runAll (failsOnce n detail) calls p).steps[n]? ≠ some (some s)) :
    Unpoisoned n (failsOnce n detail) calls p := by
  have hidle : ∀ q : PreparedStore, Marked n q →
      q.steps <+: (runAll (failsOnce n detail) calls p).steps → ∀ s, q.busy s = false := by
    intro q hq hpre s
    by_contra hbusy
    have hstep := (hq s).mp (by simpa using hbusy)
    obtain ⟨hn, hstep⟩ := List.getElem?_eq_some_iff.mp hstep
    exact h s (by rw [List.prefix_iff_getElem?.mp hpre n hn, hstep])
  induction calls generalizing p with
  | nil => trivial
  | cons call calls ih =>
    have hrest := grown_runAll (failsOnce n detail) calls (exec (call.run (failsOnce n detail)) p).2
    have hnow := hidle p hp (grown_runAll (failsOnce n detail) (call :: calls) p)
    refine ⟨fun q hq => ?_, fun hpast => ⟨?_, ?_⟩, ?_⟩
    · exact hidle q (call.marked_boundaries hp q hq) ((call.grown_boundaries q hq).trans hrest)
    · exact call.run_renewed hclosed hnow hpast
    · rintro op rfl hop
      exact op.run_returns hclosed hnow hpast hop
    · exact ih (call.implements.marked _ p hp) (call.closed_run hclosed) h hidle

theorem idle_of_unpoisoned {faults : StepFaults} (calls : List Invocation)
    (hp : ∀ s, p.busy s = false) (h : Unpoisoned n faults calls p) :
    ∀ s, (runAll faults calls p).busy s = false := by
  induction calls generalizing p with
  | nil => exact hp
  | cons call calls ih => exact ih (h.1 _ call.last_boundary) h.2.2

theorem marked_runAll (calls : List Invocation) (hp : Marked n p) :
    Marked n (runAll (failsOnce n detail) calls p) := by
  induction calls generalizing p with
  | nil => exact hp
  | cons call calls ih => exact ih (call.implements.marked _ p hp)

/-- One failing step leaves the store as good as new if and only if it is not a step of
one of the statements that are prepared once. -/
theorem unpoisoned_iff (n : Nat) (detail : String) (t : Tables) (calls : List Invocation) :
    Unpoisoned n (failsOnce n detail) calls (opened t) ↔
      ∀ s, (runAll (failsOnce n detail) calls (opened t)).steps[n]? ≠ some (some s) := by
  constructor
  · intro h s hs
    have hidle := idle_of_unpoisoned calls (fun _ => rfl) h s
    rw [(marked_runAll calls (marked_opened t) s).mpr hs] at hidle
    cases hidle
  · exact unpoisoned_of_unshared calls (marked_opened t) ⟨rfl, rfl, rfl⟩

end Runs

/-- A `set` whose `DELETE` fails leaves that statement stepped. -/
theorem failed_delete_poisons :
    ¬ ∀ (n : Nat) (detail : String) (t : Tables) (calls : List Invocation),
      Unpoisoned n (failsOnce n detail) calls (opened t) := by
  intro h
  have hidle := (h 0 "database or disk is full" ⟨∅, ∅⟩ [.operation (.set 0 ∅)]).1 _
    (List.mem_singleton.mpr rfl) .deleteByVector
  have hbusy : (exec ((Operation.set 0 ∅).run (failsOnce 0 "database or disk is full"))
      (opened ⟨∅, ∅⟩)).2.busy .deleteByVector = true := rfl
  rw [hbusy] at hidle
  cases hidle

/-- The next `set`, of another vector, is misuse. -/
example : (exec ((Operation.set 1 ∅).run neverFails)
    (exec ((Operation.set 0 ∅).run (failsOnce 0 "database or disk is full")) (opened ⟨∅, ∅⟩)).2).1 =
      .error (.metadata ("bind integer failed: bad parameter or other API misuse " ++
        "(bad parameter or other API misuse) [code 21]")) := rfl

end VectorDb.Storage
