import VectorDb.Concurrency.ThreadPool

/-!
`ThreadPool::parallel_for`: the caller submits one contiguous chunk per worker
and then collects the futures in order. The caller, the workers and other users
of the pool take their steps in any order.

The pool is not being destroyed while a call is in progress, so no worker exits
and `submit` does not throw.
-/
set_option autoImplicit false

namespace VectorDb.Concurrency

/-- `std::size_t` arithmetic wraps here. -/
def sizeRange : Nat := 18446744073709551616

def chunkCount (count workers : Nat) : Nat := min count workers

def chunkSize (count workers : Nat) : Nat :=
  (count + chunkCount count workers - 1) % sizeRange / chunkCount count workers

def chunkBegin (count workers chunk : Nat) : Nat :=
  chunk * chunkSize count workers % sizeRange

def chunkEnd (count workers chunk : Nat) : Nat :=
  min ((chunkBegin count workers chunk + chunkSize count workers) % sizeRange) count

/-- The submission loop goes past `chunk`: its bound and its `begin >= end` break. -/
def SubmitsNext (count workers chunk : Nat) : Prop :=
  chunk < chunkCount count workers ∧
    chunkBegin count workers chunk < chunkEnd count workers chunk

instance (count workers chunk : Nat) : Decidable (SubmitsNext count workers chunk) :=
  inferInstanceAs (Decidable (_ ∧ _))

/-- The submission loop reaches `chunk` and submits it. -/
def Submits (count workers chunk : Nat) : Prop :=
  ∀ c, c ≤ chunk → SubmitsNext count workers c

/-- A queued or running task: a chunk of this call, at the next index it will
hand to the body, or a task of some other user of the pool. -/
inductive Task where
  | chunk (id next stop : Nat) : Task
  | other (n : Nat) : Task
  deriving DecidableEq, Repr

@[simp] def Task.chunkId : Task → Option Nat
  | .chunk id _ _ => some id
  | .other _ => none

@[simp] def Worker.chunkId : Worker Task → Option Nat
  | .running task => task.chunkId
  | _ => none

inductive Future where
  | pending | value | exception
  deriving DecidableEq, Repr

/-- Where the thread inside `parallel_for` is. -/
inductive Caller where
  | inline (i : Nat) : Caller
  | submitting (chunk : Nat) : Caller
  | getting (chunk : Nat) : Caller
  | returned : Caller
  | rethrown : Caller
  deriving DecidableEq, Repr

def Caller.Left (c : Caller) : Prop := c = .returned ∨ c = .rethrown

structure CallState where
  pool : ThreadPool Task
  futures : List Future
  caller : Caller
  deriving DecidableEq, Repr

/-- What `parallel_for` does before its first loop. -/
def enter (count workers : Nat) : Caller :=
  if count = 0 then .returned
  else if workers = 0 ∨ count = 1 then .inline 0
  else .submitting 0

/-- One step of the caller, of a worker, or of another user of the pool. A body
that throws on an index ends its chunk; `packaged_task` puts the exception in
the future. -/
inductive CallStep (count : Nat) (throws : Nat → Bool) : CallState → CallState → Prop where
  | submitChunk {s : CallState} {c : Nat} {p : ThreadPool Task} :
      s.caller = .submitting c → SubmitsNext count s.pool.workers.length c →
      s.pool.submit (.chunk c (chunkBegin count s.pool.workers.length c)
        (chunkEnd count s.pool.workers.length c)) = .ok p →
      CallStep count throws s ⟨p, s.futures ++ [.pending], .submitting (c + 1)⟩
  | submitEnd {s : CallState} {c : Nat} :
      s.caller = .submitting c → ¬ SubmitsNext count s.pool.workers.length c →
      CallStep count throws s { s with caller := .getting 0 }
  | getValue {s : CallState} {c : Nat} :
      s.caller = .getting c → s.futures[c]? = some .value →
      CallStep count throws s { s with caller := .getting (c + 1) }
  | getException {s : CallState} {c : Nat} :
      s.caller = .getting c → s.futures[c]? = some .exception →
      CallStep count throws s { s with caller := .rethrown }
  | getEnd {s : CallState} {c : Nat} :
      s.caller = .getting c → s.futures.length ≤ c →
      CallStep count throws s { s with caller := .returned }
  | inlineBody {s : CallState} {i : Nat} :
      s.caller = .inline i → i < count → throws i = false →
      CallStep count throws s { s with caller := .inline (i + 1) }
  | inlineThrow {s : CallState} {i : Nat} :
      s.caller = .inline i → i < count → throws i = true →
      CallStep count throws s { s with caller := .rethrown }
  | inlineEnd {s : CallState} {i : Nat} :
      s.caller = .inline i → ¬ i < count →
      CallStep count throws s { s with caller := .returned }
  | take {s : CallState} {i : Nat} {task : Task} {rest : List Task} :
      s.pool.workers[i]? = some .waiting → s.pool.tasks = task :: rest →
      CallStep count throws s { s with pool := s.pool.take i task rest }
  | body {s : CallState} {i id next stop : Nat} :
      s.pool.workers[i]? = some (.running (.chunk id next stop)) → next < stop →
      throws next = false →
      CallStep count throws s
        { s with pool := s.pool.setWorker i (.running (.chunk id (next + 1) stop)) }
  | bodyThrow {s : CallState} {i id next stop : Nat} :
      s.pool.workers[i]? = some (.running (.chunk id next stop)) → next < stop →
      throws next = true →
      CallStep count throws s
        ⟨s.pool.setWorker i .finishing, s.futures.set id .exception, s.caller⟩
  | bodyEnd {s : CallState} {i id next stop : Nat} :
      s.pool.workers[i]? = some (.running (.chunk id next stop)) → ¬ next < stop →
      CallStep count throws s
        ⟨s.pool.setWorker i .finishing, s.futures.set id .value, s.caller⟩
  | otherEnd {s : CallState} {i n : Nat} :
      s.pool.workers[i]? = some (.running (.other n)) →
      CallStep count throws s { s with pool := s.pool.setWorker i .finishing }
  | finish {s : CallState} {i : Nat} :
      s.pool.workers[i]? = some .finishing →
      CallStep count throws s { s with pool := s.pool.finish i }
  | submitOther {s : CallState} {n : Nat} {p : ThreadPool Task} :
      s.pool.submit (.other n) = .ok p →
      CallStep count throws s { s with pool := p }

/-- A call entered on a pool of `workers` live workers that other users may have
filled with work of their own. -/
structure CallStart (count workers : Nat) (s : CallState) : Prop where
  size : s.pool.workers.length = workers
  running : s.pool.stopping = false
  tasks : ∀ t ∈ s.pool.tasks, t.chunkId = none
  busy : ∀ w ∈ s.pool.workers, w.chunkId = none ∧ w ≠ .exited
  futures : s.futures = []
  caller : s.caller = enter count workers

def parallelFor (count workers : Nat) (throws : Nat → Bool) : Lib.Transition CallState :=
  ⟨CallStart count workers, CallStep count throws⟩

/-- No chunk task of the call is queued or inside a worker. -/
def NothingLeft (s : CallState) : Prop :=
  ∀ id next stop, ¬ s.pool.Holds (.chunk id next stop)

/-- The chunks of the call that are queued or running, by number. -/
def ThreadPool.chunkIds (p : ThreadPool Task) : List Nat :=
  p.tasks.filterMap Task.chunkId ++ p.workers.filterMap Worker.chunkId

theorem ThreadPool.mem_chunkIds {p : ThreadPool Task} {id next stop : Nat}
    (h : p.Holds (.chunk id next stop)) : id ∈ p.chunkIds := by
  rcases h with h | h
  · exact List.mem_append_left _ (List.mem_filterMap.mpr ⟨_, h, rfl⟩)
  · exact List.mem_append_right _ (List.mem_filterMap.mpr ⟨_, h, rfl⟩)

/-- Splitting the worker list at the worker that takes the step. -/
theorem split_at_worker {α : Type} {l : List α} {i : Nat} {a : α} (h : l[i]? = some a) :
    ∃ l₁ l₂, l = l₁ ++ a :: l₂ ∧ ∀ b, l.set i b = l₁ ++ b :: l₂ := by
  induction l generalizing i with
  | nil => simp at h
  | cons c l ih =>
    cases i with
    | zero =>
      simp only [List.getElem?_cons_zero, Option.some.injEq] at h
      subst h
      exact ⟨[], l, rfl, fun b => rfl⟩
    | succ i =>
      obtain ⟨l₁, l₂, hl, hset⟩ := ih (by simpa using h)
      exact ⟨c :: l₁, l₂, by rw [hl]; rfl, fun b => by simp [hset b]⟩

/-- A worker that moves on without changing its chunk changes no chunk. -/
theorem chunkIds_set {p : ThreadPool Task} {i : Nat} {w q : Worker Task}
    (h : p.workers[i]? = some w) (hid : q.chunkId = w.chunkId) :
    (p.workers.set i q).filterMap Worker.chunkId = p.workers.filterMap Worker.chunkId := by
  obtain ⟨l₁, l₂, hl, hset⟩ := split_at_worker h
  rw [hset q, hl]
  simp only [List.filterMap_append, List.filterMap_cons, hid]

/-- A worker done with chunk `id` takes just that chunk off. -/
theorem chunkIds_done {p : ThreadPool Task} {i id : Nat} {w q : Worker Task}
    (h : p.workers[i]? = some w) (hw : w.chunkId = some id) (hq : q.chunkId = none) :
    (p.workers.filterMap Worker.chunkId).Perm
      (id :: (p.workers.set i q).filterMap Worker.chunkId) := by
  obtain ⟨l₁, l₂, hl, hset⟩ := split_at_worker h
  rw [hset q, hl]
  simp only [List.filterMap_append, List.filterMap_cons, hw, hq]
  exact List.perm_middle

/-- What every state of a call satisfies. The futures of the queued and running
chunks are pending, so a future that is ready has no task left. -/
structure CallInv (count workers : Nat) (throws : Nat → Bool) (s : CallState) : Prop where
  size : s.pool.workers.length = workers
  nodup : s.pool.chunkIds.Nodup
  pending : ∀ id ∈ s.pool.chunkIds, s.futures[id]? = some .pending
  range : ∀ id next stop, s.pool.Holds (.chunk id next stop) →
    chunkBegin count workers id ≤ next ∧ stop = chunkEnd count workers id
  submitted : ∀ id, id < s.futures.length → Submits count workers id
  threw : ∀ id, s.futures[id]? = some .exception →
    ∃ i, chunkBegin count workers id ≤ i ∧ i < chunkEnd count workers id ∧ throws i = true
  submitting : ∀ c, s.caller = .submitting c →
    s.futures.length = c ∧ ∀ c', c' < c → SubmitsNext count workers c'
  getting : ∀ c, s.caller = .getting c → ∀ k, k < c → s.futures[k]? = some .value
  inline : ∀ i, s.caller = .inline i → s.futures = []
  returned : s.caller = .returned → ∀ k, k < s.futures.length → s.futures[k]? = some .value
  rethrown : s.caller = .rethrown → s.futures = [] ∨
    ∃ c : Nat, s.futures[c]? = some .exception ∧ ∀ k, k < c → s.futures[k]? = some .value

section Steps
variable {count workers : Nat} {throws : Nat → Bool} {s : CallState}

theorem CallStart.chunkIds_nil (h : CallStart count workers s) : s.pool.chunkIds = [] := by
  unfold ThreadPool.chunkIds
  rw [List.append_eq_nil_iff]
  exact ⟨List.filterMap_eq_nil_iff.mpr h.tasks,
    List.filterMap_eq_nil_iff.mpr fun w hw => (h.busy w hw).1⟩

theorem CallStart.inv (h : CallStart count workers s) : CallInv count workers throws s := by
  have hids := h.chunkIds_nil
  have hf := h.futures
  refine ⟨h.size, by simp [hids], by simp [hids], ?_, by simp [hf], by simp [hf], ?_, ?_,
    fun _ _ => hf, by simp [hf], fun _ => .inl hf⟩
  · intro id next stop hh
    have := ThreadPool.mem_chunkIds hh
    simp [hids] at this
  · intro c hc
    have : c = 0 := by
      rw [h.caller] at hc
      unfold enter at hc
      split at hc
      · cases hc
      · split at hc <;> cases hc
        rfl
    subst this
    exact ⟨by simp [hf], by simp⟩
  · intro c hc
    rw [h.caller] at hc
    unfold enter at hc
    split at hc
    · cases hc
    · split at hc <;> cases hc

/-- Steps that leave pool and futures alone only have to answer for the caller. -/
theorem CallInv.move (h : CallInv count workers throws s) {c : Caller}
    (hs : ∀ k, c = .submitting k → s.futures.length = k ∧ ∀ c', c' < k → SubmitsNext count workers c')
    (hg : ∀ k, c = .getting k → ∀ j, j < k → s.futures[j]? = some .value)
    (hi : ∀ i, c = .inline i → s.futures = [])
    (hr : c = .returned → ∀ k, k < s.futures.length → s.futures[k]? = some .value)
    (hx : c = .rethrown → s.futures = [] ∨
      ∃ k : Nat, s.futures[k]? = some .exception ∧ ∀ j, j < k → s.futures[j]? = some .value) :
    CallInv count workers throws { s with caller := c } :=
  ⟨h.size, h.nodup, h.pending, h.range, h.submitted, h.threw, hs, hg, hi, hr, hx⟩

/-- Steps that only move work inside the pool. -/
theorem CallInv.movePool (h : CallInv count workers throws s) {p : ThreadPool Task}
    (hsize : p.workers.length = workers) (hids : p.chunkIds.Perm s.pool.chunkIds)
    (hrange : ∀ id next stop, p.Holds (.chunk id next stop) →
      chunkBegin count workers id ≤ next ∧ stop = chunkEnd count workers id) :
    CallInv count workers throws { s with pool := p } :=
  ⟨hsize, hids.nodup_iff.mpr h.nodup, fun id hid => h.pending id (hids.mem_iff.mp hid), hrange,
    h.submitted, h.threw, h.submitting, h.getting, h.inline, h.returned, h.rethrown⟩

/-- Whatever a worker moves to, the other tasks of the pool were there before. -/
theorem Holds_setWorker {p : ThreadPool Task} {i : Nat} {w : Worker Task} {t : Task}
    (h : (p.setWorker i w).Holds t) : p.Holds t ∨ w = .running t := by
  rcases h with h | h
  · exact .inl (.inl h)
  · rcases List.mem_or_eq_of_mem_set h with h | h
    · exact .inl (.inr h)
    · exact .inr h.symm

theorem CallInv.setWorker (h : CallInv count workers throws s) {i : Nat} {w w' : Worker Task}
    (hw : s.pool.workers[i]? = some w) (hid : w'.chunkId = w.chunkId)
    (hrange : ∀ id next stop, w' = .running (.chunk id next stop) →
      chunkBegin count workers id ≤ next ∧ stop = chunkEnd count workers id) :
    CallInv count workers throws { s with pool := s.pool.setWorker i w' } := by
  refine h.movePool (by simpa using h.size) ?_ ?_
  · simp only [ThreadPool.chunkIds, ThreadPool.setWorker_tasks, ThreadPool.setWorker_workers]
    rw [chunkIds_set hw hid]
  · intro id next stop hh
    rcases Holds_setWorker hh with hh | hh
    · exact h.range id next stop hh
    · exact hrange id next stop hh

/-- A chunk that ends: its worker is done with it and its future becomes ready. -/
theorem CallInv.endChunk (h : CallInv count workers throws s) {i id next stop : Nat} {f : Future}
    (hw : s.pool.workers[i]? = some (.running (.chunk id next stop)))
    (hf : f = .exception → ∃ j, chunkBegin count workers id ≤ j ∧
      j < chunkEnd count workers id ∧ throws j = true) :
    CallInv count workers throws
      ⟨s.pool.setWorker i .finishing, s.futures.set id f, s.caller⟩ := by
  have hperm : s.pool.chunkIds.Perm (id :: (s.pool.setWorker i .finishing).chunkIds) := by
    have hd := chunkIds_done (q := .finishing) hw rfl rfl
    exact (List.Perm.append_left _ hd).trans List.perm_middle
  have hnd := hperm.nodup_iff.mp h.nodup
  have hpend : s.futures[id]? = some .pending :=
    h.pending id (hperm.mem_iff.mpr List.mem_cons_self)
  have hget : ∀ (k : Nat) (g : Future), g ≠ .pending → s.futures[k]? = some g → (s.futures.set id f)[k]? = some g := by
    intro k g hg hk
    have hne : id ≠ k := by
      rintro rfl
      rw [hpend] at hk
      exact hg (Option.some.inj hk).symm
    rw [List.getElem?_set_ne hne]
    exact hk
  refine ⟨by simpa using h.size, (List.nodup_cons.mp hnd).2, ?_, ?_, by simpa using h.submitted, ?_,
    by simpa using h.submitting, ?_, ?_, ?_, ?_⟩
  · intro k hk
    have hne : id ≠ k := by
      rintro rfl
      exact (List.nodup_cons.mp hnd).1 hk
    have hk' : k ∈ s.pool.chunkIds := hperm.mem_iff.mpr (List.mem_cons_of_mem _ hk)
    show (s.futures.set id f)[k]? = _
    rw [List.getElem?_set_ne hne]
    exact h.pending k hk'
  · intro k n m hh
    rcases Holds_setWorker hh with hh | hh
    · exact h.range k n m hh
    · cases hh
  · intro k hk
    by_cases hne : id = k
    · subst hne
      have hlt : id < s.futures.length := (List.getElem?_eq_some_iff.mp hpend).1
      rw [List.getElem?_set_self hlt] at hk
      exact hf (Option.some.inj hk)
    · rw [List.getElem?_set_ne hne] at hk
      exact h.threw k hk
  · intro c hc k hk
    exact hget k _ (by decide) (h.getting c hc k hk)
  · intro j hj
    have := h.inline j hj
    simp [this]
  · intro hc k hk
    exact hget k _ (by decide) (h.returned hc k (by simpa using hk))
  · intro hc
    rcases h.rethrown hc with hnil | ⟨c, hex, hval⟩
    · exact .inl (by simp [hnil])
    · exact .inr ⟨c, hget c _ (by decide) hex, fun k hk => hget k _ (by decide) (hval k hk)⟩

theorem CallInv.submitChunk (h : CallInv count workers throws s) {c : Nat} {p : ThreadPool Task}
    (hc : s.caller = .submitting c) (hn : SubmitsNext count workers c)
    (hp : s.pool.submit (.chunk c (chunkBegin count workers c) (chunkEnd count workers c)) = .ok p) :
    CallInv count workers throws ⟨p, s.futures ++ [.pending], .submitting (c + 1)⟩ := by
  obtain ⟨hlen, hprev⟩ := h.submitting c hc
  rw [(ThreadPool.submit_ok hp).2]
  have hnew : c ∉ s.pool.chunkIds := by
    intro hmem
    have hp := h.pending c hmem
    rw [List.getElem?_eq_none (by omega)] at hp
    cases hp
  have hperm : ({ s.pool with tasks := s.pool.tasks ++
      [.chunk c (chunkBegin count workers c) (chunkEnd count workers c)] } : ThreadPool Task).chunkIds.Perm
      (c :: s.pool.chunkIds) := by
    simp only [ThreadPool.chunkIds, List.filterMap_append, List.append_assoc]
    exact List.perm_middle
  have hall : ∀ c', c' < c + 1 → SubmitsNext count workers c' := by
    intro c' hc'
    by_cases hcc : c' = c
    · rw [hcc]; exact hn
    · exact hprev c' (by omega)
  refine ⟨h.size, hperm.nodup_iff.mpr (List.nodup_cons.mpr ⟨hnew, h.nodup⟩), ?_, ?_, ?_, ?_, ?_,
    by simp, by simp, by simp, by simp⟩
  · intro id hid
    rcases List.mem_cons.mp (hperm.mem_iff.mp hid) with rfl | hid
    · simp [← hlen]
    · have hp := h.pending id hid
      exact (List.getElem?_append_left (List.getElem?_eq_some_iff.mp hp).1).trans hp
  · intro id next stop hh
    rcases hh with hh | hh
    · rcases List.mem_append.mp hh with hh | hh
      · exact h.range id next stop (.inl hh)
      · rw [List.mem_singleton] at hh
        cases hh
        exact ⟨Nat.le_refl _, rfl⟩
    · exact h.range id next stop (.inr hh)
  · intro id hid c' hc'
    simp only [List.length_append, List.length_singleton, hlen] at hid
    exact hall c' (by omega)
  · intro id hid
    by_cases hlt : id < s.futures.length
    · rw [List.getElem?_append_left hlt] at hid
      exact h.threw id hid
    · rw [List.getElem?_append_right (by omega), List.getElem?_singleton] at hid
      split at hid <;> cases hid
  · intro k hk
    cases hk
    exact ⟨by simp [hlen], hall⟩

theorem CallInv.step (h : CallInv count workers throws s) {t : CallState}
    (hs : CallStep count throws s t) : CallInv count workers throws t := by
  have hsize := h.size
  cases hs with
  | submitChunk hc hn hp =>
    rw [hsize] at hn hp
    exact h.submitChunk hc hn hp
  | submitEnd hc hn =>
    refine h.move (by simp) ?_ (by simp) (by simp) (by simp)
    intro k hk
    cases hk
    simp
  | @getValue c hc hv =>
    refine h.move (by simp) ?_ (by simp) (by simp) (by simp)
    intro k hk
    cases hk
    intro j hj
    by_cases hjc : j = c
    · rw [hjc]; exact hv
    · exact h.getting c hc j (by omega)
  | @getException c hc hx =>
    refine h.move (by simp) (by simp) (by simp) (by simp) ?_
    intro _
    exact .inr ⟨c, hx, h.getting c hc⟩
  | @getEnd c hc hlen =>
    refine h.move (by simp) (by simp) (by simp) ?_ (by simp)
    intro _ k hk
    exact h.getting c hc k (by omega)
  | @inlineBody i hi _ _ =>
    exact h.move (by simp) (by simp) (fun _ _ => h.inline i hi) (by simp) (by simp)
  | @inlineThrow i hi _ _ =>
    exact h.move (by simp) (by simp) (by simp) (by simp) (fun _ => .inl (h.inline i hi))
  | @inlineEnd i hi _ =>
    have hnil := h.inline i hi
    exact h.move (by simp) (by simp) (by simp) (by simp [hnil]) (by simp)
  | @take i task rest hw ht =>
    obtain ⟨l₁, l₂, hl, hset⟩ := split_at_worker hw
    refine h.movePool (by simpa using hsize) ?_ ?_
    · simp only [ThreadPool.chunkIds, ThreadPool.take_tasks, ThreadPool.take_workers, hset, ht]
      rw [hl]
      cases task with
      | other n => simp [List.filterMap_cons]
      | chunk id next stop =>
        simp only [List.filterMap_append, List.filterMap_cons, Worker.chunkId, Task.chunkId,
          List.cons_append]
        exact (List.perm_middle.append_left _).trans List.perm_middle
    · intro id next stop hh
      apply h.range id next stop
      rcases hh with hh | hh
      · exact .inl (by rw [ht]; exact List.mem_cons_of_mem _ hh)
      · rcases List.mem_or_eq_of_mem_set hh with hh | hh
        · exact .inr hh
        · cases hh
          exact .inl (by rw [ht]; exact List.mem_cons_self)
  | @body i id next stop hw hlt hth =>
    refine h.setWorker hw rfl ?_
    intro id' next' stop' hh
    cases hh
    have := h.range id next stop (.inr (List.mem_of_getElem? hw))
    exact ⟨by omega, this.2⟩
  | @bodyThrow i id next stop hw hlt hth =>
    refine h.endChunk hw fun _ => ?_
    have := h.range id next stop (.inr (List.mem_of_getElem? hw))
    exact ⟨next, this.1, by omega, hth⟩
  | bodyEnd hw _ => exact h.endChunk hw (by simp)
  | otherEnd hw => exact h.setWorker hw rfl (by simp)
  | @finish i hw =>
    refine h.movePool (by simpa using hsize) ?_ ?_
    · simp only [ThreadPool.chunkIds, ThreadPool.finish_tasks, ThreadPool.finish_workers]
      have hids := chunkIds_set (p := s.pool) (q := .waiting) hw rfl
      rw [hids]
    · intro id next stop hh
      rcases Holds_setWorker (w := .waiting) hh with hh | hh
      · exact h.range id next stop hh
      · cases hh
  | submitOther hp =>
    rw [(ThreadPool.submit_ok hp).2]
    refine h.movePool hsize ?_ ?_
    · simp [ThreadPool.chunkIds, List.filterMap_cons]
    · intro id next stop hh
      apply h.range id next stop
      rcases hh with hh | hh
      · rcases List.mem_append.mp hh with hh | hh
        · exact .inl hh
        · simp at hh
      · exact .inr hh

end Steps

theorem parallelFor_inv {count workers : Nat} {throws : Nat → Bool} {s : CallState}
    (h : (parallelFor count workers throws).Reachable s) : CallInv count workers throws s :=
  h.invariant (fun _ h0 => CallStart.inv h0)
    (fun s t (hi : CallInv count workers throws s) hs => (hi.step hs : CallInv _ _ _ t))

/-- Once every future is ready no chunk is left, whatever the futures hold. -/
theorem CallInv.nothingLeft {count workers : Nat} {throws : Nat → Bool} {s : CallState}
    (h : CallInv count workers throws s)
    (hready : ∀ k : Nat, s.futures[k]? ≠ some .pending) : NothingLeft s :=
  fun id _ _ hh => hready id (h.pending id (ThreadPool.mem_chunkIds hh))

/-- No chunk but the last one submitted throws. -/
def OnlyLastThrows (count workers : Nat) (throws : Nat → Bool) : Prop :=
  ∀ c, Submits count workers (c + 1) →
    ∀ i, chunkBegin count workers c ≤ i → i < chunkEnd count workers c → throws i = false

theorem CallInv.left {count workers : Nat} {throws : Nat → Bool} {s : CallState}
    (h : CallInv count workers throws s) (hlast : OnlyLastThrows count workers throws)
    (hleft : s.caller.Left) : NothingLeft s := by
  apply h.nothingLeft
  intro k hk
  have hlt : k < s.futures.length := (List.getElem?_eq_some_iff.mp hk).1
  rcases hleft with hret | hthr
  · rw [h.returned hret k hlt] at hk
    cases hk
  · rcases h.rethrown hthr with hnil | ⟨c, hex, hval⟩
    · simp [hnil] at hlt
    · -- the chunk that threw is the last one, so every future up to it is ready
      obtain ⟨i, hbi, hie, hti⟩ := h.threw c hex
      have hkc : k ≤ c := by
        by_contra hgt
        have hsub := h.submitted k hlt
        have := hlast c (fun c' hc' => hsub c' (by omega)) i hbi hie
        rw [this] at hti
        cases hti
      rcases Nat.lt_or_eq_of_le hkc with hlt' | rfl
      · rw [hval k hlt'] at hk
        cases hk
      · rw [hex] at hk
        cases hk

/-- How a chunk ends when the body still has `[next, stop)` to visit. -/
def outcome (throws : Nat → Bool) (next stop : Nat) : Future :=
  if (List.range' next (stop - next)).any throws then .exception else .value

theorem any_range'_iff {throws : Nat → Bool} {next stop : Nat} :
    (List.range' next (stop - next)).any throws = true ↔
      ∃ i, next ≤ i ∧ i < stop ∧ throws i = true := by
  simp only [List.any_eq_true, List.mem_range'_1]
  constructor
  · rintro ⟨i, hi, ht⟩
    exact ⟨i, by omega, by omega, ht⟩
  · rintro ⟨i, hi, hs, ht⟩
    exact ⟨i, by omega, ht⟩

theorem outcome_exception {throws : Nat → Bool} {next stop : Nat}
    (h : ∃ i, next ≤ i ∧ i < stop ∧ throws i = true) : outcome throws next stop = .exception :=
  if_pos (any_range'_iff.mpr h)

theorem outcome_value {throws : Nat → Bool} {next stop : Nat}
    (h : ¬ ∃ i, next ≤ i ∧ i < stop ∧ throws i = true) : outcome throws next stop = .value :=
  if_neg fun hany => h (any_range'_iff.mp hany)

theorem outcome_succ {throws : Nat → Bool} {next stop : Nat} (hlt : next < stop)
    (h : throws next = false) : outcome throws next stop = outcome throws (next + 1) stop := by
  have hs : stop - next = stop - (next + 1) + 1 := by omega
  simp only [outcome, hs, List.range'_succ, List.any_cons, h, Bool.false_or]

section Schedule
variable (count : Nat) (throws : Nat → Bool)

/-- A worker left alone brings its chunk to the end. -/
theorem runs_chunk {i id stop : Nat} (n : Nat) {s : CallState} {next : Nat}
    (hn : stop - next = n) (hw : s.pool.workers[i]? = some (.running (.chunk id next stop))) :
    Relation.ReflTransGen (CallStep count throws) s
      ⟨s.pool.setWorker i .finishing, s.futures.set id (outcome throws next stop), s.caller⟩ := by
  induction n generalizing s next with
  | zero =>
    rw [outcome_value (by rintro ⟨i, _, _, _⟩; omega)]
    exact .single (.bodyEnd hw (by omega))
  | succ n ih =>
    have hlt : next < stop := by omega
    cases ht : throws next with
    | true =>
      rw [outcome_exception ⟨next, Nat.le_refl _, hlt, ht⟩]
      exact .single (.bodyThrow hw hlt ht)
    | false =>
      have hi : i < s.pool.workers.length := (List.getElem?_eq_some_iff.mp hw).1
      have hw' : (s.pool.setWorker i (.running (.chunk id (next + 1) stop))).workers[i]? =
          some (.running (.chunk id (next + 1) stop)) := by simp [hi]
      have hrun := ih (s := { s with pool := s.pool.setWorker i (.running (.chunk id (next + 1) stop)) })
        (by omega) hw'
      rw [outcome_succ hlt ht]
      refine .head (.body hw hlt ht) ?_
      simpa [ThreadPool.setWorker] using hrun

/-- A waiting worker left alone takes the front chunk, runs it and waits again. -/
theorem runs_front {i id next stop : Nat} {rest : List Task} {s : CallState}
    (hw : s.pool.workers[i]? = some .waiting) (ht : s.pool.tasks = .chunk id next stop :: rest) :
    Relation.ReflTransGen (CallStep count throws) s
      ⟨{ s.pool with tasks := rest }, s.futures.set id (outcome throws next stop), s.caller⟩ := by
  have hi : i < s.pool.workers.length := (List.getElem?_eq_some_iff.mp hw).1
  have hself : s.pool.workers.set i .waiting = s.pool.workers := by
    obtain ⟨l₁, l₂, hl, hset⟩ := split_at_worker hw
    rw [hset, ← hl]
  let p := s.pool.take i (.chunk id next stop) rest
  have hp : p.workers[i]? = some (.running (.chunk id next stop)) := by simp [p, hi]
  have hrun := runs_chunk count throws _ (s := { s with pool := p }) rfl hp
  refine .head (.take hw ht) (.trans hrun (.single ?_))
  have hfin : (p.setWorker i .finishing).workers[i]? = some .finishing := by simp [p, hi]
  have hend : CallStep count throws
      ⟨p.setWorker i .finishing, s.futures.set id (outcome throws next stop), s.caller⟩ _ :=
    .finish hfin
  simpa [p, ThreadPool.setWorker, ThreadPool.take, ThreadPool.finish, hself] using hend

end Schedule

def chunkTask (count workers chunk : Nat) : Task :=
  .chunk chunk (chunkBegin count workers chunk) (chunkEnd count workers chunk)

section Schedule
variable {count workers : Nat} (throws : Nat → Bool)

/-- The caller may submit all its chunks before any worker wakes. -/
theorem submits_first {m : Nat} (hm : ∀ c, c < m → SubmitsNext count workers c) (h2 : 2 ≤ m) :
    ∃ s, (parallelFor count workers throws).Reachable s ∧ s.caller = .submitting m ∧
      s.pool.stopping = false ∧ s.pool.workers = List.replicate workers .waiting ∧
      s.pool.tasks = (List.range' 0 m).map (chunkTask count workers) ∧ s.futures.length = m := by
  have hcount : 1 < min count workers := (hm 1 (by omega)).1
  have hstep : ∀ n, n ≤ m → ∃ s, (parallelFor count workers throws).Reachable s ∧
      s.caller = .submitting n ∧ s.pool.stopping = false ∧
      s.pool.workers = List.replicate workers .waiting ∧
      s.pool.tasks = (List.range' 0 n).map (chunkTask count workers) ∧ s.futures.length = n := by
    intro n
    induction n with
    | zero =>
      intro _
      refine ⟨⟨⟨[], 0, false, List.replicate workers .waiting⟩, [], .submitting 0⟩,
        .start ⟨by simp, rfl, by simp, ?_, rfl, ?_⟩, rfl, rfl, rfl, rfl, rfl⟩
      · intro w hw
        rw [List.eq_of_mem_replicate hw]
        simp
      · have h0 : count ≠ 0 := by omega
        have h1 : ¬ (workers = 0 ∨ count = 1) := by omega
        simp [enter, h0, h1]
    | succ n ih =>
      intro hn
      obtain ⟨s, hr, hc, hst, hw, ht, hf⟩ := ih (by omega)
      have hlen : s.pool.workers.length = workers := by simp [hw]
      have hnext : SubmitsNext count s.pool.workers.length n := by
        rw [hlen]
        exact hm n (by omega)
      have hsub : s.pool.submit (chunkTask count s.pool.workers.length n) =
          .ok { s.pool with tasks := s.pool.tasks ++ [chunkTask count s.pool.workers.length n] } := by
        simp [ThreadPool.submit, hst]
      refine ⟨_, hr.step (.submitChunk hc hnext hsub), rfl, hst, hw, ?_, by simp [hf]⟩
      rw [hlen] at *
      simp [ht, List.range'_concat]
  exact hstep m (Nat.le_refl m)

/-- One worker may then run the first `k` chunks while the others sleep. -/
theorem runs_first {m k : Nat} {s : CallState} (hk : k ≤ m) (hw : s.pool.workers[0]? = some .waiting)
    (ht : s.pool.tasks = (List.range' 0 m).map (chunkTask count workers))
    (hf : s.futures.length = m) :
    ∃ t, Relation.ReflTransGen (CallStep count throws) s t ∧ t.caller = s.caller ∧
      t.pool.workers = s.pool.workers ∧
      t.pool.tasks = (List.range' k (m - k)).map (chunkTask count workers) ∧
      t.futures.length = m ∧ ∀ c, c < k → t.futures[c]? =
        some (outcome throws (chunkBegin count workers c) (chunkEnd count workers c)) := by
  induction k with
  | zero => exact ⟨s, .refl, rfl, rfl, ht, hf, by simp⟩
  | succ k ih =>
    obtain ⟨t, hrun, hc, hwt, htt, hft, hout⟩ := ih (by omega)
    have hsplit : (List.range' k (m - k)).map (chunkTask count workers) =
        chunkTask count workers k :: (List.range' (k + 1) (m - (k + 1))).map (chunkTask count workers) := by
      have hmk : m - k = m - (k + 1) + 1 := by omega
      rw [hmk, List.range'_succ]
      rfl
    rw [hsplit] at htt
    have hnext := runs_front count throws (by rw [hwt]; exact hw) htt
    refine ⟨_, hrun.trans hnext, hc, hwt, rfl, by simp [hft], ?_⟩
    intro c hck
    by_cases hcc : c = k
    · subst hcc
      simp [hft, show c < m by omega]
    · have hne : k ≠ c := by omega
      show (t.futures.set k _)[c]? = _
      rw [List.getElem?_set_ne hne]
      exact hout c (by omega)

/-- The caller collects futures up to the first one that holds an exception. -/
theorem rethrows {j : Nat} {s : CallState} (hc : s.caller = .getting 0)
    (hval : ∀ c, c < j → s.futures[c]? = some .value) (hex : s.futures[j]? = some .exception) :
    Relation.ReflTransGen (CallStep count throws) s { s with caller := .rethrown } := by
  have hget : ∀ c, c ≤ j →
      Relation.ReflTransGen (CallStep count throws) s { s with caller := .getting c } := by
    intro c
    induction c with
    | zero =>
      intro _
      rw [← hc]
    | succ c ih =>
      intro hcj
      exact (ih (by omega)).tail (.getValue rfl (hval c (by omega)))
  exact (hget j (Nat.le_refl j)).tail (.getException rfl hex)

/-- The submission loop ends, at the latest after one chunk per worker. -/
theorem submission_ends {c : Nat} (h : Submits count workers c) :
    ∃ m, c < m ∧ (∀ c', c' < m → SubmitsNext count workers c') ∧ ¬ SubmitsNext count workers m := by
  have hex : ∃ m, ¬ SubmitsNext count workers m :=
    ⟨chunkCount count workers, fun hm => Nat.lt_irrefl _ hm.1⟩
  refine ⟨Nat.find hex, ?_, fun c' hc' => not_not.mp (Nat.find_min hex hc'), Nat.find_spec hex⟩
  by_contra hge
  exact Nat.find_spec hex (h _ (by omega))

/-- When a chunk that is not the last one throws, some schedule lets the call
rethrow with the next chunk still queued. -/
theorem leaves_queued {throws : Nat → Bool} (h : ¬ OnlyLastThrows count workers throws) :
    ∃ s, (parallelFor count workers throws).Reachable s ∧ s.caller = .rethrown ∧
      ¬ NothingLeft s := by
  have hbad : ∃ c, Submits count workers (c + 1) ∧
      ∃ i, chunkBegin count workers c ≤ i ∧ i < chunkEnd count workers c ∧ throws i = true := by
    by_contra hnone
    apply h
    intro c hs i hb he
    by_contra ht
    exact hnone ⟨c, hs, i, hb, he, by simpa using ht⟩
  classical
  -- the first chunk that throws
  let j := Nat.find hbad
  obtain ⟨hsub, hthrow⟩ := Nat.find_spec hbad
  have hvalue : ∀ c, c < j →
      outcome throws (chunkBegin count workers c) (chunkEnd count workers c) = .value := by
    intro c hc
    refine outcome_value fun hex => Nat.find_min hbad hc ⟨?_, hex⟩
    exact fun c' hc' => hsub c' (by omega)
  obtain ⟨m, hjm, hm, hend⟩ := submission_ends hsub
  obtain ⟨s, hr, hc, hst, hw, ht, hf⟩ := submits_first throws hm (by omega)
  have hworkers : 0 < workers := by
    have := (hm 0 (by omega)).1
    simp only [chunkCount] at this
    omega
  have hs0 : (parallelFor count workers throws).Reachable { s with caller := .getting 0 } :=
    hr.step (.submitEnd hc (by simpa [hw] using hend))
  obtain ⟨t, hrun, hct, hwt, htt, hft, hout⟩ :=
    runs_first throws (k := j + 1) (s := { s with caller := .getting 0 })
      (by omega) (by simp [hw, hworkers]) ht hf
  have hjx : t.futures[j]? = some .exception := by
    rw [hout j (by omega)]
    exact congrArg some (outcome_exception hthrow)
  refine ⟨{ t with caller := .rethrown }, (hs0.run hrun).run (rethrows throws hct ?_ hjx), rfl, ?_⟩
  · intro c hcj
    rw [hout c (by omega), hvalue c hcj]
  · intro hnone
    apply hnone (j + 1) (chunkBegin count workers (j + 1)) (chunkEnd count workers (j + 1))
    refine .inl ?_
    show _ ∈ t.pool.tasks
    rw [htt]
    exact List.mem_map.mpr ⟨j + 1, by simp [List.mem_range']; omega, rfl⟩

end Schedule

/-- In every interleaving the chunks of the call are over when it leaves, if and
only if no chunk but the last one submitted throws. -/
theorem parallelFor_nothing_left_iff (count workers : Nat) (throws : Nat → Bool) :
    (∀ s, (parallelFor count workers throws).Reachable s → s.caller.Left → NothingLeft s) ↔
      OnlyLastThrows count workers throws := by
  constructor
  · intro h
    by_contra hlast
    obtain ⟨s, hr, hc, hleft⟩ := leaves_queued hlast
    exact hleft (h s hr (.inr hc))
  · intro hlast s hr hleft
    exact (parallelFor_inv hr).left hlast hleft

/-- Two indices on two workers, the first one throwing: the call can be over
with the second chunk still queued. -/
theorem parallelFor_two_leaves_queued :
    ¬ ∀ s, (parallelFor 2 2 (fun i => i == 0)).Reachable s → s.caller.Left → NothingLeft s := by
  intro h
  have hbad : ¬ OnlyLastThrows 2 2 (fun i => i == 0) := by
    intro hlast
    have hsub : Submits 2 2 1 := by
      intro c hc
      have : c = 0 ∨ c = 1 := by omega
      rcases this with rfl | rfl <;> decide
    have := hlast 0 hsub 0 (by decide) (by decide)
    simp at this
  obtain ⟨s, hr, hc, hleft⟩ := leaves_queued hbad
  exact hleft (h s hr (.inr hc))

end VectorDb.Concurrency
