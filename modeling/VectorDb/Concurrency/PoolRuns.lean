import VectorDb.Concurrency.ThreadPool
import VectorDb.Lib.FairRun

/-!
Every thread that touches a pool: its workers, callers of `submit` and of
`wait_idle`, and the destructor. One step is one critical section, one call of
a task, or one call of a condition variable; the steps come in any order.

A task is the number of its `submit` call. A worker that `work_available_.wait`
has put to sleep stays asleep until it is notified or wakes spuriously.
-/
set_option autoImplicit false

namespace VectorDb.Concurrency
open Lib

def hardwareThreads (reported : Nat) : Nat := if reported = 0 then 1 else reported

/-- The constructor: `reported` is what `std::thread::hardware_concurrency` returns. -/
def ThreadPool.create {τ : Type} (threads reported : Nat) : ThreadPool τ :=
  { tasks := [], active := 0, stopping := false,
    workers := List.replicate (if threads = 0 then hardwareThreads reported else threads) .waiting }

/-- The predicate of `wait_idle`. -/
def ThreadPool.Idle {τ : Type} (p : ThreadPool τ) : Prop := p.tasks = [] ∧ p.active = 0

instance {τ : Type} (p : ThreadPool τ) : Decidable p.Idle :=
  decidable_of_iff (p.tasks.isEmpty = true ∧ p.active = 0) (by simp [ThreadPool.Idle])

/-- Where one caller of `wait_idle` is. -/
inductive Waiter where
  | checking | blocked | returned
  deriving DecidableEq, Repr

/-- `all_idle_.notify_all`. -/
def Waiter.notified : Waiter → Waiter
  | .blocked => .checking
  | w => w

/-- Where `~ThreadPool` is. -/
inductive Destructor where
  | notCalled : Destructor
  | stopped : Destructor
  | joining (worker : Nat) : Destructor
  | joined : Destructor
  deriving DecidableEq, Repr

/-- The join of this worker has returned. -/
def Destructor.Past : Destructor → Nat → Prop
  | .joining k, i => i < k
  | .joined, _ => True
  | _, _ => False

/-- `unsent` counts the `submit` calls that have queued their task and have not
called `notify_one` yet. -/
structure PoolState where
  pool : ThreadPool Nat
  accepted : Nat
  executed : List Nat
  asleep : Finset Nat
  unsent : Nat
  waiters : List Waiter
  destructor : Destructor

inductive Thread where
  | worker (i : Nat) : Thread
  | notifier : Thread
  | destructor : Thread
  | other : Thread
  deriving DecidableEq, Repr

inductive PoolStep : Thread → PoolState → PoolState → Prop where
  | submit {s : PoolState} {p : ThreadPool Nat} :
      s.pool.submit s.accepted = .ok p →
      PoolStep .other s { s with pool := p, accepted := s.accepted + 1, unsent := s.unsent + 1 }
  | submitThrows {s : PoolState} {message : String} :
      s.pool.submit s.accepted = .error message → PoolStep .other s s
  | notifyOne {s : PoolState} {i : Nat} : 0 < s.unsent → i ∈ s.asleep →
      PoolStep .notifier s { s with unsent := s.unsent - 1, asleep := s.asleep.erase i }
  | notifyNone {s : PoolState} : 0 < s.unsent → s.asleep = ∅ →
      PoolStep .notifier s { s with unsent := s.unsent - 1 }
  | wakes {s : PoolState} {i : Nat} : i ∈ s.asleep →
      PoolStep .other s { s with asleep := s.asleep.erase i }
  | sleeps {s : PoolState} {i : Nat} :
      s.pool.workers[i]? = some .waiting → i ∉ s.asleep →
      s.pool.stopping = false → s.pool.tasks = [] →
      PoolStep (.worker i) s { s with asleep := insert i s.asleep }
  | exits {s : PoolState} {i : Nat} :
      s.pool.workers[i]? = some .waiting → i ∉ s.asleep →
      s.pool.stopping = true → s.pool.tasks = [] →
      PoolStep (.worker i) s { s with pool := s.pool.setWorker i .exited }
  | takes {s : PoolState} {i task : Nat} {rest : List Nat} :
      s.pool.workers[i]? = some .waiting → i ∉ s.asleep → s.pool.tasks = task :: rest →
      PoolStep (.worker i) s { s with pool := s.pool.take i task rest }
  | runs {s : PoolState} {i task : Nat} :
      s.pool.workers[i]? = some (.running task) →
      PoolStep (.worker i) s
        { s with pool := s.pool.setWorker i .finishing, executed := s.executed ++ [task] }
  | finishes {s : PoolState} {i : Nat} :
      s.pool.workers[i]? = some .finishing →
      PoolStep (.worker i) s { s with
        pool := s.pool.finish i
        waiters := if (s.pool.finish i).Idle then s.waiters.map Waiter.notified else s.waiters }
  | waitIdle {s : PoolState} :
      PoolStep .other s { s with waiters := s.waiters ++ [.checking] }
  | waitBlocks {s : PoolState} {j : Nat} :
      s.waiters[j]? = some .checking → ¬ s.pool.Idle →
      PoolStep .other s { s with waiters := s.waiters.set j .blocked }
  | waitWakes {s : PoolState} {j : Nat} :
      s.waiters[j]? = some .blocked →
      PoolStep .other s { s with waiters := s.waiters.set j .checking }
  | waitReturns {s : PoolState} {j : Nat} :
      s.waiters[j]? = some .checking → s.pool.Idle →
      PoolStep .other s { s with waiters := s.waiters.set j .returned }
  | stops {s : PoolState} : s.destructor = .notCalled →
      PoolStep .destructor s
        { s with pool := { s.pool with stopping := true }, destructor := .stopped }
  | notifyAll {s : PoolState} : s.destructor = .stopped →
      PoolStep .destructor s { s with asleep := ∅, destructor := .joining 0 }
  | joins {s : PoolState} {i : Nat} :
      s.destructor = .joining i → s.pool.workers[i]? = some .exited →
      PoolStep .destructor s { s with destructor := .joining (i + 1) }
  | returns {s : PoolState} {i : Nat} :
      s.destructor = .joining i → s.pool.workers.length ≤ i →
      PoolStep .destructor s { s with destructor := .joined }

def newPool (threads reported : Nat) : PoolState :=
  { pool := .create threads reported, accepted := 0, executed := [], asleep := ∅, unsent := 0,
    waiters := [], destructor := .notCalled }

def poolThreads (threads reported : Nat) : Threads Thread PoolState where
  start s := s = newPool threads reported
  step := PoolStep

/-- How often the task is queued, inside a worker's call, or done. -/
def PoolState.places (s : PoolState) (task : Nat) : Nat :=
  s.pool.tasks.count task + s.pool.workers.count (.running task) + s.executed.count task

def Worker.isBusy {τ : Type} : Worker τ → Bool
  | .running _ | .finishing => true
  | _ => false

@[simp] theorem Worker.isBusy_waiting {τ : Type} : (Worker.waiting : Worker τ).isBusy = false := rfl
@[simp] theorem Worker.isBusy_exited {τ : Type} : (Worker.exited : Worker τ).isBusy = false := rfl
@[simp] theorem Worker.isBusy_finishing {τ : Type} :
    (Worker.finishing : Worker τ).isBusy = true := rfl
@[simp] theorem Worker.isBusy_running {τ : Type} (task : τ) :
    (Worker.running task).isBusy = true := rfl

structure PoolState.Sound (s : PoolState) : Prop where
  nonempty : 0 < s.pool.workers.length
  active : s.pool.active = s.pool.workers.countP Worker.isBusy
  places : ∀ task, s.places task = if task < s.accepted then 1 else 0
  exited : .exited ∈ s.pool.workers → s.pool.stopping = true ∧ s.pool.tasks = []
  asleep : ∀ i ∈ s.asleep, s.pool.workers[i]? = some .waiting
  woken : s.pool.tasks ≠ [] → 0 < s.unsent ∨ ∃ i, i < s.pool.workers.length ∧ i ∉ s.asleep
  stopping : s.destructor ≠ .notCalled → s.pool.stopping = true
  joined : ∀ i, i < s.pool.workers.length → s.destructor.Past i →
    s.pool.workers[i]? = some .exited

theorem countP_set_getElem? {α : Type} (f : α → Bool) {l : List α} {i : Nat} {w : α} (v : α)
    (h : l[i]? = some w) :
    (l.set i v).countP f + (if f w then 1 else 0) = l.countP f + if f v then 1 else 0 := by
  obtain ⟨hi, rfl⟩ := List.getElem?_eq_some_iff.mp h
  have hle := List.boole_getElem_le_countP (p := f) hi
  rw [List.countP_set hi]
  omega

section Steps
variable {s t : PoolState} {i : Nat} {w v : Worker Nat}

/-- A worker that is not asleep moves, and what it moves of the queue, of the
counter and of the finished tasks stays in balance. -/
theorem PoolState.Sound.move (h : s.Sound) {tasks executed : List Nat} {active : Nat}
    (waiters : List Waiter) (hw : s.pool.workers[i]? = some w) (hawake : i ∉ s.asleep)
    (hlive : w ≠ .exited)
    (hactive : active + (if w.isBusy then 1 else 0) = s.pool.active + if v.isBusy then 1 else 0)
    (hplaces : ∀ task, tasks.count task + (if v == .running task then 1 else 0)
      + executed.count task = s.pool.tasks.count task + (if w == .running task then 1 else 0)
      + s.executed.count task)
    (hexit : v = .exited → s.pool.stopping = true)
    (htasks : v = .exited ∨ s.pool.tasks = [] → tasks = []) :
    PoolState.Sound { s with
      pool := { tasks := tasks, active := active, stopping := s.pool.stopping,
                workers := s.pool.workers.set i v }
      executed := executed
      waiters := waiters } := by
  have hi : i < s.pool.workers.length := (List.getElem?_eq_some_iff.mp hw).1
  constructor
  case nonempty => simpa using h.nonempty
  case active =>
    have hcount := countP_set_getElem? Worker.isBusy v hw
    have hold := h.active
    simp only
    omega
  case places =>
    intro task
    have hcount := countP_set_getElem? (· == Worker.running task) v hw
    have hold := h.places task
    have hbalance := hplaces task
    simp only [PoolState.places, List.count_eq_countP] at hold hbalance ⊢
    omega
  case exited =>
    intro hmem
    rcases List.mem_or_eq_of_mem_set hmem with hmem | heq
    · exact ⟨(h.exited hmem).1, htasks (.inr (h.exited hmem).2)⟩
    · exact ⟨hexit heq.symm, htasks (.inl heq.symm)⟩
  case asleep =>
    intro j hj
    have hne : i ≠ j := fun heq => hawake (heq ▸ hj)
    rw [List.getElem?_set_ne hne]
    exact h.asleep j hj
  case woken => exact fun _ => .inr ⟨i, by simpa using hi, hawake⟩
  case stopping => exact h.stopping
  case joined =>
    intro j hj hpast
    have hexited := h.joined j (by simpa using hj) hpast
    have hne : i ≠ j := by
      rintro rfl
      rw [hw] at hexited
      exact hlive (Option.some.inj hexited)
    rw [List.getElem?_set_ne hne]
    exact hexited

theorem PoolState.Sound.awake (h : s.Sound) (hw : s.pool.workers[i]? = some w)
    (hne : w ≠ .waiting) : i ∉ s.asleep := by
  intro hi
  have hwait := h.asleep i hi
  rw [hw] at hwait
  exact hne (Option.some.inj hwait)

theorem PoolState.Sound.submit (h : s.Sound) {p : ThreadPool Nat}
    (hp : s.pool.submit s.accepted = .ok p) :
    PoolState.Sound { s with pool := p, accepted := s.accepted + 1, unsent := s.unsent + 1 } := by
  obtain ⟨hgo, rfl⟩ := ThreadPool.submit_ok hp
  refine ⟨h.nonempty, h.active, ?_, ?_, h.asleep, fun _ => .inl (Nat.succ_pos _), h.stopping,
    h.joined⟩
  · intro task
    have hold := h.places task
    simp only [PoolState.places, List.count_append, List.count_singleton] at hold ⊢
    by_cases heq : s.accepted = task
    · simp only [heq, beq_self_eq_true, if_true, Nat.lt_irrefl, if_false] at hold ⊢
      simp
      omega
    · have hbeq : (s.accepted == task) = false := by simpa using heq
      have hiff : (task < s.accepted + 1) = (task < s.accepted) := by
        apply propext
        omega
      simp only [hbeq, hiff, Bool.false_eq_true, if_false]
      omega
  · intro hmem
    have hstop := (h.exited hmem).1
    rw [hgo] at hstop
    cases hstop

theorem PoolState.Sound.wake (h : s.Sound) (unsent : Nat) (hi : i ∈ s.asleep) :
    PoolState.Sound { s with unsent := unsent, asleep := s.asleep.erase i } := by
  have hlt := (List.getElem?_eq_some_iff.mp (h.asleep i hi)).1
  exact ⟨h.nonempty, h.active, h.places, h.exited,
    fun j hj => h.asleep j (Finset.mem_of_mem_erase hj),
    fun _ => .inr ⟨i, hlt, Finset.notMem_erase i _⟩, h.stopping, h.joined⟩

theorem PoolState.Sound.step {thread : Thread} (h : s.Sound) (hstep : PoolStep thread s t) :
    t.Sound := by
  cases hstep with
  | submit hp => exact h.submit hp
  | submitThrows => exact h
  | notifyOne _ hi => exact h.wake _ hi
  | notifyNone _ hnone =>
    exact ⟨h.nonempty, h.active, h.places, h.exited, h.asleep,
      fun _ => .inr ⟨0, h.nonempty, by simp [hnone]⟩, h.stopping, h.joined⟩
  | wakes hi => exact h.wake s.unsent hi
  | @sleeps _ i hw _ _ hnil =>
    refine ⟨h.nonempty, h.active, h.places, h.exited, ?_, fun hne => absurd hnil hne, h.stopping,
      h.joined⟩
    intro j hj
    rcases Finset.mem_insert.mp hj with rfl | hj
    · exact hw
    · exact h.asleep j hj
  | exits hw hawake hstop hnil =>
    exact h.move s.waiters hw hawake (by simp) (by simp) (by simp) (fun _ => hstop) fun _ => hnil
  | takes hw hawake htasks =>
    refine h.move s.waiters hw hawake (by simp) (by simp) ?_ (by simp) (by simp [htasks])
    intro task
    simp [htasks, List.count_cons]
  | runs hw =>
    refine h.move s.waiters hw (h.awake hw (by simp)) (by simp) (by simp) ?_ (by simp) (by simp)
    intro task
    simp [List.count_cons]
    omega
  | finishes hw =>
    refine h.move _ hw (h.awake hw (by simp)) (by simp) ?_ (by simp) (by simp) (by simp)
    have hpos : 0 < s.pool.workers.countP Worker.isBusy :=
      List.countP_pos_iff.mpr ⟨_, List.mem_of_getElem? hw, rfl⟩
    rw [← h.active] at hpos
    simp
    omega
  | waitIdle => exact { h with }
  | waitBlocks => exact { h with }
  | waitWakes => exact { h with }
  | waitReturns => exact { h with }
  | stops hd =>
    exact ⟨h.nonempty, h.active, h.places, fun hmem => ⟨rfl, (h.exited hmem).2⟩, h.asleep, h.woken,
      fun _ => rfl, fun _ _ hpast => hpast.elim⟩
  | notifyAll hd =>
    exact ⟨h.nonempty, h.active, h.places, h.exited, by simp, fun _ => .inr ⟨0, h.nonempty, by simp⟩,
      fun _ => h.stopping (by simp [hd]), fun i _ hpast => absurd hpast (Nat.not_lt_zero i)⟩
  | @joins _ i hd hw =>
    refine ⟨h.nonempty, h.active, h.places, h.exited, h.asleep, h.woken,
      fun _ => h.stopping (by simp [hd]), ?_⟩
    intro j hj hpast
    rcases Nat.lt_succ_iff_lt_or_eq.mp hpast with hlt | rfl
    · exact h.joined j hj (by rw [hd]; exact hlt)
    · exact hw
  | returns hd hle =>
    refine ⟨h.nonempty, h.active, h.places, h.exited, h.asleep, h.woken,
      fun _ => h.stopping (by simp [hd]), ?_⟩
    intro j hj _
    exact h.joined j hj (by rw [hd]; exact Nat.lt_of_lt_of_le hj hle)

theorem PoolState.sound_newPool (threads reported : Nat) : (newPool threads reported).Sound := by
  have hpos : 0 < if threads = 0 then hardwareThreads reported else threads := by
    unfold hardwareThreads
    split
    · split <;> omega
    · omega
  refine ⟨by simpa [newPool, ThreadPool.create] using hpos, ?_, ?_, ?_, ?_, ?_, ?_, ?_⟩
  · simp [newPool, ThreadPool.create, List.countP_replicate]
  · intro task
    simp [PoolState.places, newPool, ThreadPool.create, List.count_replicate]
  · intro hmem
    simp [newPool, ThreadPool.create] at hmem
  · simp [newPool]
  · simp [newPool, ThreadPool.create]
  · simp [newPool]
  · intro i _ hpast
    exact hpast.elim

theorem PoolState.reachable_sound {threads reported : Nat}
    (h : (poolThreads threads reported).system.Reachable s) : s.Sound := by
  refine h.invariant (P := PoolState.Sound) ?_ ?_
  · rintro _ rfl
    exact sound_newPool threads reported
  · rintro s t hs ⟨thread, hstep⟩
    exact hs.step hstep

/-- Nothing runs and nothing is queued in the state in which a `wait_idle` returns. -/
theorem PoolState.Sound.idle (h : s.Sound) (hidle : s.pool.Idle) :
    s.pool.tasks = [] ∧ ∀ w ∈ s.pool.workers, w.isBusy = false := by
  refine ⟨hidle.1, fun w hw => ?_⟩
  by_contra hbusy
  have hpos := List.countP_pos_iff.mpr ⟨w, hw, Bool.eq_true_of_not_eq_false hbusy⟩
  rw [← h.active, hidle.2] at hpos
  exact absurd hpos (Nat.lt_irrefl 0)

/-- What is left when the joins of the destructor have returned. -/
theorem PoolState.Sound.afterJoins (h : s.Sound) (hd : s.destructor = .joined) :
    s.pool.tasks = [] ∧ (∀ w ∈ s.pool.workers, w = .exited) ∧
      ∀ task, task < s.accepted → s.executed.count task = 1 := by
  have hall : ∀ w ∈ s.pool.workers, w = .exited := by
    intro w hw
    obtain ⟨i, hi⟩ := List.mem_iff_getElem?.mp hw
    have hexited := h.joined i (List.getElem?_eq_some_iff.mp hi).1 (by rw [hd]; trivial)
    rw [hi] at hexited
    exact Option.some.inj hexited
  have hmem : .exited ∈ s.pool.workers := by
    obtain ⟨w, hw⟩ := List.exists_mem_of_length_pos h.nonempty
    exact hall w hw ▸ hw
  have hnil := (h.exited hmem).2
  refine ⟨hnil, hall, fun task htask => ?_⟩
  have hplaces := h.places task
  have hnone : s.pool.workers.count (.running task) = 0 := by
    refine List.count_eq_zero.mpr fun hrun => ?_
    cases hall _ hrun
  rw [if_pos htask, PoolState.places, hnil, hnone] at hplaces
  simpa using hplaces

end Steps

end VectorDb.Concurrency
