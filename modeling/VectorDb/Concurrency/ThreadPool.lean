import VectorDb.Lib.Transition

/-!
The pool of src/concurrency/thread_pool.cpp: a task queue, the workers that
drain it, and the critical sections in which they touch the queue, the active
counter and the stopping flag. A task is whatever `task()` is in the middle of.
-/
set_option autoImplicit false

namespace VectorDb.Concurrency

/-- Where one worker is in `worker_loop`. Between `finishing` and `waiting` lies
the critical section that decrements `active_`. -/
inductive Worker (τ : Type) where
  | waiting : Worker τ
  | running (task : τ) : Worker τ
  | finishing : Worker τ
  | exited : Worker τ
  deriving DecidableEq, Repr

structure ThreadPool (τ : Type) where
  tasks : List τ
  active : Nat
  stopping : Bool
  workers : List (Worker τ)
  deriving DecidableEq, Repr

variable {τ : Type}

/-- `submit` queues the task unless the pool is already shutting down. -/
def ThreadPool.submit (p : ThreadPool τ) (task : τ) : Except String (ThreadPool τ) :=
  if p.stopping then .error "thread pool is shutting down"
  else .ok { p with tasks := p.tasks ++ [task] }

def ThreadPool.setWorker (p : ThreadPool τ) (i : Nat) (w : Worker τ) : ThreadPool τ :=
  { p with workers := p.workers.set i w }

/-- The first critical section of `worker_loop`: move the front task out and
count it as active. -/
def ThreadPool.take (p : ThreadPool τ) (i : Nat) (task : τ) (rest : List τ) : ThreadPool τ :=
  { p with tasks := rest, active := p.active + 1, workers := p.workers.set i (.running task) }

/-- The second critical section of `worker_loop`. -/
def ThreadPool.finish (p : ThreadPool τ) (i : Nat) : ThreadPool τ :=
  { p with active := p.active - 1, workers := p.workers.set i .waiting }

theorem ThreadPool.submit_ok {p q : ThreadPool τ} {task : τ} (h : p.submit task = .ok q) :
    p.stopping = false ∧ q = { p with tasks := p.tasks ++ [task] } := by
  unfold ThreadPool.submit at h
  split at h
  · cases h
  · next hgo => exact ⟨by simpa using hgo, (Except.ok.inj h).symm⟩

/-- `task` is in the queue or inside some worker's `task()` call. -/
def ThreadPool.Holds (p : ThreadPool τ) (task : τ) : Prop :=
  task ∈ p.tasks ∨ .running task ∈ p.workers

section Fields
variable (p : ThreadPool τ) (i : Nat) (w : Worker τ) (task : τ) (rest : List τ)

@[simp] theorem ThreadPool.setWorker_tasks : (p.setWorker i w).tasks = p.tasks := rfl
@[simp] theorem ThreadPool.setWorker_active : (p.setWorker i w).active = p.active := rfl
@[simp] theorem ThreadPool.setWorker_stopping : (p.setWorker i w).stopping = p.stopping := rfl
@[simp] theorem ThreadPool.setWorker_workers :
    (p.setWorker i w).workers = p.workers.set i w := rfl
@[simp] theorem ThreadPool.take_tasks : (p.take i task rest).tasks = rest := rfl
@[simp] theorem ThreadPool.take_workers :
    (p.take i task rest).workers = p.workers.set i (.running task) := rfl
@[simp] theorem ThreadPool.finish_tasks : (p.finish i).tasks = p.tasks := rfl
@[simp] theorem ThreadPool.finish_workers :
    (p.finish i).workers = p.workers.set i .waiting := rfl

end Fields

end VectorDb.Concurrency
