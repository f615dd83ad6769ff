import VectorDb.Concurrency.PoolRuns

/-!
What must happen in a pool whose threads are all scheduled again and again:
every queued task is executed, and the destructor returns.
-/
set_option autoImplicit false

namespace VectorDb.Concurrency
open Lib

/-- Some worker is inside the call of the task. -/
def PoolState.Runs (s : PoolState) (task : Nat) : Prop :=
  ∃ i : Nat, s.pool.workers[i]? = some (Worker.running task)

/-- How far a worker is from taking the next task. -/
def Worker.distance : Worker Nat → Nat
  | .running _ => 2
  | .finishing => 1
  | _ => 0

/-- A worker that is awake, and what it has left to do. -/
def PoolState.Awake (s : PoolState) (distance : Nat) : Prop :=
  ∃ (i : Nat) (w : Worker Nat),
    s.pool.workers[i]? = some w ∧ i ∉ s.asleep ∧ w.distance = distance

/-- Everybody sleeps, and a `notify_one` is on its way. -/
def PoolState.Notified (s : PoolState) : Prop :=
  0 < s.unsent ∧ ∀ i, i < s.pool.workers.length → i ∈ s.asleep

/-- The task is queued and `rank` is what stands before its call: four for each
task in front of it, and what the nearest worker has left to do. -/
def PoolState.Due (task rank : Nat) (s : PoolState) : Prop :=
  ∃ pos distance : Nat, s.pool.tasks[pos]? = some task ∧ rank = 4 * pos + distance ∧
    (s.Awake distance ∨ distance = 3 ∧ s.Notified)

/-- The task is being called, or less stands before its call than `rank`. -/
def PoolState.Sooner (task rank : Nat) (s : PoolState) : Prop :=
  s.Runs task ∨ ∃ less, less < rank ∧ s.Due task less

/-- Steps a worker has left when nothing more is queued. -/
def Worker.stepsLeft : Worker Nat → Nat
  | .running _ => 3
  | .finishing => 2
  | .waiting => 1
  | .exited => 0

/-- What the workers have left to do once `submit` throws. -/
def PoolState.load (s : PoolState) : Nat :=
  4 * s.pool.tasks.length + (s.pool.workers.map Worker.stepsLeft).sum

/-- The destructor waits for worker `k`, and nobody sleeps. -/
structure PoolState.Joining (size k : Nat) (s : PoolState) : Prop where
  destructor : s.destructor = .joining k
  asleep : s.asleep = ∅
  size : s.pool.workers.length = size

section Queue
variable {s t : PoolState} {thread : Thread} {task front pos i : Nat} {rest : List Nat}
  {w : Worker Nat}

theorem tasks_ne_nil (hpos : s.pool.tasks[pos]? = some task) : s.pool.tasks ≠ [] := by
  intro hnil
  rw [hnil] at hpos
  cases hpos

theorem PoolState.sooner_take (hw : s.pool.workers[i]? = some .waiting)
    (hawake : i ∉ s.asleep) (htasks : s.pool.tasks = front :: rest)
    (hpos : s.pool.tasks[pos]? = some task) {rank : Nat} (hrank : 4 * pos ≤ rank) :
    PoolState.Sooner task rank { s with pool := s.pool.take i front rest } := by
  have hrun : (s.pool.workers.set i (.running front))[i]? = some (.running front) :=
    List.getElem?_set_self (List.getElem?_eq_some_iff.mp hw).1
  rw [htasks] at hpos
  cases pos with
  | zero =>
    obtain rfl : front = task := by simpa using hpos
    exact .inl ⟨i, hrun⟩
  | succ pos =>
    refine .inr ⟨4 * pos + 2, by omega, pos, 2, by simpa using hpos, rfl, .inl ?_⟩
    exact ⟨i, .running front, hrun, hawake, rfl⟩

/-- A step leaves a queued task where it is or brings it nearer. -/
theorem PoolStep.queue (h : PoolStep thread s t)
    (hpos : s.pool.tasks[pos]? = some task) {rank : Nat} (hrank : 4 * pos ≤ rank) :
    t.pool.tasks[pos]? = some task ∨ t.Sooner task rank := by
  cases h with
  | submit hp =>
    obtain ⟨-, rfl⟩ := ThreadPool.submit_ok hp
    left
    show (s.pool.tasks ++ [s.accepted])[pos]? = some task
    rw [List.getElem?_append_left (List.getElem?_eq_some_iff.mp hpos).1]
    exact hpos
  | takes hw hawake htasks => exact .inr (PoolState.sooner_take hw hawake htasks hpos hrank)
  | _ => exact .inl hpos

/-- While something is queued only its own step moves a worker that is awake. -/
theorem PoolStep.keeps_worker (h : PoolStep thread s t) (hw : s.pool.workers[i]? = some w)
    (hawake : i ∉ s.asleep) (hne : s.pool.tasks ≠ []) (hthread : thread ≠ .worker i) :
    t.pool.workers[i]? = some w ∧ i ∉ t.asleep := by
  have hother : ∀ {j : Nat} {v : Worker Nat}, Thread.worker j ≠ .worker i →
      (s.pool.workers.set j v)[i]? = some w := by
    intro j v hj
    rw [List.getElem?_set_ne fun heq => hj (congrArg Thread.worker heq)]
    exact hw
  cases h with
  | submit hp =>
    obtain ⟨-, rfl⟩ := ThreadPool.submit_ok hp
    exact ⟨hw, hawake⟩
  | notifyOne => exact ⟨hw, fun hmem => hawake (Finset.mem_of_mem_erase hmem)⟩
  | wakes => exact ⟨hw, fun hmem => hawake (Finset.mem_of_mem_erase hmem)⟩
  | sleeps _ _ _ hnil => exact absurd hnil hne
  | exits _ _ _ hnil => exact absurd hnil hne
  | takes => exact ⟨hother hthread, hawake⟩
  | runs => exact ⟨hother hthread, hawake⟩
  | finishes => exact ⟨hother hthread, hawake⟩
  | notifyAll => exact ⟨hw, by simp⟩
  | _ => exact ⟨hw, hawake⟩

/-- The move of a worker that is awake brings a queued task nearer. -/
theorem PoolStep.nearer (h : PoolStep (.worker i) s t)
    (hpos : s.pool.tasks[pos]? = some task) (hw : s.pool.workers[i]? = some w)
    (hawake : i ∉ s.asleep) : t.Sooner task (4 * pos + w.distance) := by
  have hlt := (List.getElem?_eq_some_iff.mp hw).1
  cases h with
  | sleeps _ _ _ hnil => exact absurd hnil (tasks_ne_nil hpos)
  | exits _ _ _ hnil => exact absurd hnil (tasks_ne_nil hpos)
  | takes hwait _ htasks => exact PoolState.sooner_take hwait hawake htasks hpos (Nat.le_add_right _ _)
  | runs hrun =>
    obtain rfl := Option.some.inj (hw.symm.trans hrun)
    refine .inr ⟨4 * pos + 1, by simp [Worker.distance], pos, 1, hpos, rfl, .inl ?_⟩
    exact ⟨i, .finishing, List.getElem?_set_self hlt, hawake, rfl⟩
  | finishes hfin =>
    obtain rfl := Option.some.inj (hw.symm.trans hfin)
    refine .inr ⟨4 * pos, by simp [Worker.distance], pos, 0, hpos, rfl, .inl ?_⟩
    exact ⟨i, .waiting, List.getElem?_set_self hlt, hawake, rfl⟩

/-- A worker that is awake can move while something is queued. -/
theorem PoolState.Sound.enabled (hs : s.Sound) (hw : s.pool.workers[i]? = some w)
    (hawake : i ∉ s.asleep) (hne : s.pool.tasks ≠ []) : ∃ t, PoolStep (.worker i) s t := by
  cases w with
  | waiting =>
    obtain ⟨front, rest, htasks⟩ := List.exists_cons_of_ne_nil hne
    exact ⟨_, .takes hw hawake htasks⟩
  | running task => exact ⟨_, .runs hw⟩
  | finishing => exact ⟨_, .finishes hw⟩
  | exited => exact absurd (hs.exited (List.mem_of_getElem? hw)).2 hne

/-- While everybody sleeps the next that happens to the workers is a wake-up. -/
theorem PoolState.Sound.notified_step (hs : s.Sound) (h : PoolStep thread s t)
    (hpos : s.pool.tasks[pos]? = some task) (hn : s.Notified) :
    (thread ≠ .notifier ∧ t.pool.tasks[pos]? = some task ∧ t.Notified) ∨
      t.Sooner task (4 * pos + 3) := by
  have hsleep : ∀ {j : Nat} {v : Worker Nat}, s.pool.workers[j]? = some v → j ∈ s.asleep :=
    fun hj => hn.2 _ (List.getElem?_eq_some_iff.mp hj).1
  have hwake : ∀ {j : Nat} (asleep : Finset Nat) (unsent : Nat), j ∈ s.asleep → j ∉ asleep →
      PoolState.Sooner task (4 * pos + 3) { s with unsent := unsent, asleep := asleep } := by
    intro j asleep unsent hj hnot
    exact .inr ⟨4 * pos, by omega, pos, 0, hpos, rfl, .inl ⟨j, .waiting, hs.asleep j hj, hnot, rfl⟩⟩
  cases h with
  | submit hp =>
    obtain ⟨-, rfl⟩ := ThreadPool.submit_ok hp
    refine .inl ⟨by simp, ?_, Nat.succ_pos _, hn.2⟩
    show (s.pool.tasks ++ [s.accepted])[pos]? = some task
    rw [List.getElem?_append_left (List.getElem?_eq_some_iff.mp hpos).1]
    exact hpos
  | notifyOne _ hi => exact .inr (hwake _ _ hi (Finset.notMem_erase _ _))
  | notifyNone _ hnone =>
    have hmem := hn.2 0 hs.nonempty
    rw [hnone] at hmem
    cases hmem
  | wakes hi => exact .inr (hwake _ s.unsent hi (Finset.notMem_erase _ _))
  | sleeps hw hawake => exact absurd (hsleep hw) hawake
  | exits hw hawake => exact absurd (hsleep hw) hawake
  | takes hw hawake => exact absurd (hsleep hw) hawake
  | runs hw => exact absurd (hsleep hw) (hs.awake hw (by simp))
  | finishes hw => exact absurd (hsleep hw) (hs.awake hw (by simp))
  | notifyAll =>
    have hmem := hn.2 0 hs.nonempty
    refine .inr (.inr ⟨4 * pos, by omega, pos, 0, hpos, rfl, .inl ⟨0, .waiting, ?_, by simp, rfl⟩⟩)
    exact hs.asleep 0 hmem
  | _ => exact .inl ⟨by simp, hpos, hn⟩

end Queue

section Live
variable {threads reported : Nat} {r : Run (poolThreads threads reported)}

/-- The workers, the `submit` calls that still have to notify, and the destructor
are not left standing for ever where they can move. Nothing is asked of the users. -/
def PoolFair (r : Run (poolThreads threads reported)) : Prop :=
  ∀ thread, thread ≠ .other → r.Fair thread

theorem awake_leadsTo_sooner (hfair : PoolFair r) (task pos i : Nat) (w : Worker Nat) :
    r.LeadsTo (fun s => s.pool.tasks[pos]? = some task ∧ s.pool.workers[i]? = some w ∧
      i ∉ s.asleep) (PoolState.Sooner task (4 * pos + w.distance)) := by
  refine r.leadsTo_of_fair (hfair (.worker i) (by simp)) ?_ ?_ ?_
  · rintro s t thread hreach ⟨hpos, hw, hawake⟩ hstep
    have hs := PoolState.reachable_sound hreach
    by_cases hthread : thread = .worker i
    · subst hthread
      exact .inr (PoolStep.nearer hstep hpos hw hawake)
    · rcases hstep.queue hpos (Nat.le_add_right _ w.distance) with hq | hsooner
      · have hkeep := hstep.keeps_worker hw hawake (tasks_ne_nil hpos) hthread
        exact .inl ⟨hq, hkeep.1, hkeep.2⟩
      · exact .inr hsooner
  · rintro s t hreach ⟨hpos, hw, hawake⟩ hstep
    exact PoolStep.nearer hstep hpos hw hawake
  · rintro s hreach ⟨hpos, hw, hawake⟩
    exact (PoolState.reachable_sound hreach).enabled hw hawake (tasks_ne_nil hpos)

theorem notified_leadsTo_sooner (hfair : PoolFair r) (task pos : Nat) :
    r.LeadsTo (fun s => s.pool.tasks[pos]? = some task ∧ s.Notified)
      (PoolState.Sooner task (4 * pos + 3)) := by
  refine r.leadsTo_of_fair (hfair .notifier (by simp)) ?_ ?_ ?_
  · rintro s t thread hreach ⟨hpos, hn⟩ hstep
    rcases (PoolState.reachable_sound hreach).notified_step hstep hpos hn with ⟨-, hq, hn'⟩ | hsooner
    · exact .inl ⟨hq, hn'⟩
    · exact .inr hsooner
  · rintro s t hreach ⟨hpos, hn⟩ hstep
    rcases (PoolState.reachable_sound hreach).notified_step hstep hpos hn with ⟨hne, -⟩ | hsooner
    · exact absurd rfl hne
    · exact hsooner
  · rintro s hreach ⟨-, hn⟩
    exact ⟨_, .notifyOne hn.1 (hn.2 0 (PoolState.reachable_sound hreach).nonempty)⟩

/-- A queued task is called at last. -/
theorem due_leadsTo_runs (hfair : PoolFair r) (task rank : Nat) :
    r.LeadsTo (PoolState.Due task rank) fun s => s.Runs task := by
  refine Run.LeadsTo.descend (P := PoolState.Due task) (fun rank => ?_) rank
  rintro n ⟨pos, distance, hpos, rfl, ⟨i, w, hw, hawake, rfl⟩ | ⟨rfl, hn⟩⟩
  · exact awake_leadsTo_sooner hfair task pos i w n ⟨hpos, hw, hawake⟩
  · exact notified_leadsTo_sooner hfair task pos n ⟨hpos, hn⟩

/-- A call that has begun ends. -/
theorem runs_leadsTo_executed (hfair : PoolFair r) (task : Nat) :
    r.LeadsTo (fun s => s.Runs task) fun s => task ∈ s.executed := by
  rintro n ⟨i, hi⟩
  refine r.leadsTo_of_fair (hfair (.worker i) (by simp))
    (P := fun s => s.pool.workers[i]? = some (.running task))
    (Q := fun s => task ∈ s.executed) ?_ ?_ ?_ n hi
  · intro s t thread hreach hw hstep
    have hmove : ∀ {j : Nat} {u v : Worker Nat}, s.pool.workers[j]? = some u →
        u ≠ .running task → (s.pool.workers.set j v)[i]? = some (.running task) := by
      intro j u v hu hne
      have hij : j ≠ i := by
        rintro rfl
        exact hne (Option.some.inj (hu.symm.trans hw))
      rw [List.getElem?_set_ne hij]
      exact hw
    cases hstep with
    | submit hp =>
      obtain ⟨-, rfl⟩ := ThreadPool.submit_ok hp
      exact .inl hw
    | exits hu => exact .inl (hmove hu (by simp))
    | takes hu => exact .inl (hmove hu (by simp))
    | @runs _ j other hu =>
      by_cases heq : other = task
      · exact .inr (by simp [heq])
      · exact .inl (hmove hu (by simpa using heq))
    | finishes hu => exact .inl (hmove hu (by simp))
    | _ => exact .inl hw
  · intro s t hreach hw hstep
    cases hstep with
    | sleeps hu => cases hw.symm.trans hu
    | exits hu => cases hw.symm.trans hu
    | takes hu => cases hw.symm.trans hu
    | runs hu =>
      cases hw.symm.trans hu
      exact List.mem_append_right _ List.mem_cons_self
    | finishes hu => cases hw.symm.trans hu
  · intro s hreach hw
    exact ⟨_, .runs hw⟩

theorem PoolStep.executed_mono {s t : PoolState} {thread : Thread} (h : PoolStep thread s t)
    {task : Nat} (hmem : task ∈ s.executed) : task ∈ t.executed := by
  cases h with
  | runs => exact List.mem_append_left _ hmem
  | _ => exact hmem

/-- An accepted task is queued in front of a worker, being called, or done. -/
theorem PoolState.Sound.accepted_cases {s : PoolState} (hs : s.Sound) {task : Nat}
    (htask : task < s.accepted) :
    (∃ rank, s.Due task rank) ∨ s.Runs task ∨ task ∈ s.executed := by
  have hplaces := hs.places task
  rw [if_pos htask, PoolState.places] at hplaces
  by_cases hqueue : task ∈ s.pool.tasks
  · left
    obtain ⟨pos, hpos⟩ := List.mem_iff_getElem?.mp hqueue
    by_cases hawake : ∃ i, i < s.pool.workers.length ∧ i ∉ s.asleep
    · obtain ⟨i, hi, hnot⟩ := hawake
      exact ⟨_, pos, _, hpos, rfl, .inl ⟨i, _, List.getElem?_eq_getElem hi, hnot, rfl⟩⟩
    · refine ⟨_, pos, 3, hpos, rfl, .inr ⟨rfl, ?_, ?_⟩⟩
      · exact (hs.woken (tasks_ne_nil hpos)).resolve_right hawake
      · intro i hi
        by_contra hnot
        exact hawake ⟨i, hi, hnot⟩
  · by_cases hrun : Worker.running task ∈ s.pool.workers
    · obtain ⟨i, hi⟩ := List.mem_iff_getElem?.mp hrun
      exact .inr (.inl ⟨i, hi⟩)
    · rw [List.count_eq_zero.mpr hqueue, List.count_eq_zero.mpr hrun] at hplaces
      exact .inr (.inr (List.count_pos_iff.mp (by omega)))

theorem PoolState.Sound.executed_le {s : PoolState} (hs : s.Sound) (task : Nat) :
    s.executed.count task ≤ 1 := by
  have hplaces := hs.places task
  unfold PoolState.places at hplaces
  split at hplaces <;> omega

/-- From some moment on an accepted task is done. -/
theorem executed_at_last (hfair : PoolFair r) (n task : Nat)
    (htask : task < (r.state n).accepted) :
    ∃ m, ∀ k, m ≤ k → (r.state k).executed.count task = 1 := by
  have hruns : ∀ n, (r.state n).Runs task → ∃ m, task ∈ (r.state m).executed := by
    intro n hrun
    obtain ⟨m, -, hm⟩ := runs_leadsTo_executed hfair task n hrun
    exact ⟨m, hm⟩
  have hdone : ∃ m, task ∈ (r.state m).executed := by
    rcases (PoolState.reachable_sound (r.reachable n)).accepted_cases htask with
      ⟨rank, hdue⟩ | hrun | hmem
    · obtain ⟨m, -, hrun⟩ := due_leadsTo_runs hfair task rank n hdue
      exact hruns m hrun
    · exact hruns n hrun
    · exact ⟨n, hmem⟩
  obtain ⟨m, hm⟩ := hdone
  refine ⟨m, fun k hk => ?_⟩
  have hmem := r.always (P := fun s => task ∈ s.executed)
    (fun _ _ _ _ hmem hstep => PoolStep.executed_mono hstep hmem) hk hm
  have hpos := List.count_pos_iff.mpr hmem
  have hle := (PoolState.reachable_sound (r.reachable k)).executed_le task
  omega

/-- Whatever the order of the steps, an accepted task is executed, and never twice. -/
theorem accepted_executed (hfair : PoolFair r) (n task : Nat)
    (htask : task < (r.state n).accepted) :
    (∀ k, (r.state k).executed.count task ≤ 1) ∧
      ∃ m, ∀ k, m ≤ k → (r.state k).executed.count task = 1 :=
  ⟨fun k => (PoolState.reachable_sound (r.reachable k)).executed_le task,
    executed_at_last hfair n task htask⟩

theorem sum_map_set {α : Type} (f : α → Nat) {l : List α} {i : Nat} {w : α} (v : α)
    (h : l[i]? = some w) : ((l.set i v).map f).sum + f w = (l.map f).sum + f v := by
  induction l generalizing i with
  | nil => cases h
  | cons a l ih =>
    cases i with
    | zero =>
      obtain rfl : a = w := by simpa using h
      simp only [List.set_cons_zero, List.map_cons, List.sum_cons]
      omega
    | succ i =>
      have hi := ih (i := i) (by simpa using h)
      simp only [List.set_cons_succ, List.map_cons, List.sum_cons]
      omega

/-- While the destructor waits for a worker every move of a worker is progress,
and nobody else touches the workers. -/
theorem PoolState.Sound.joining_step {s t : PoolState} {thread : Thread} {size k : Nat}
    (hs : s.Sound) (hj : s.Joining size k) (h : PoolStep thread s t) :
    (t.destructor = .joined ∨ k < size ∧ t.Joining size (k + 1)) ∨
      (t.Joining size k ∧ t.load < s.load) ∨
      (t.Joining size k ∧ t.load = s.load ∧ t.pool.workers = s.pool.workers ∧
        thread ≠ .destructor ∧ ∀ i, thread ≠ .worker i) := by
  have hstop : s.pool.stopping = true := hs.stopping (by simp [hj.destructor])
  have hmoved : ∀ {i : Nat} {w v : Worker Nat}, s.pool.workers[i]? = some w →
      ((s.pool.workers.set i v).map Worker.stepsLeft).sum + w.stepsLeft =
        (s.pool.workers.map Worker.stepsLeft).sum + v.stepsLeft :=
    fun hw => sum_map_set Worker.stepsLeft _ hw
  have hjoining : ∀ {i : Nat} {v : Worker Nat} (tasks executed : List Nat) (active : Nat)
      (waiters : List Waiter), PoolState.Joining size k { s with
        pool := { tasks := tasks, active := active, stopping := s.pool.stopping,
                  workers := s.pool.workers.set i v }
        executed := executed
        waiters := waiters } :=
    fun _ _ _ _ => ⟨hj.destructor, hj.asleep, by simpa using hj.size⟩
  cases h with
  | submit hp =>
    obtain ⟨hgo, -⟩ := ThreadPool.submit_ok hp
    rw [hgo] at hstop
    cases hstop
  | submitThrows => exact .inr (.inr ⟨hj, rfl, rfl, by simp, by simp⟩)
  | notifyOne _ hi =>
    rw [hj.asleep] at hi
    cases hi
  | notifyNone =>
    exact .inr (.inr ⟨⟨hj.destructor, hj.asleep, hj.size⟩, rfl, rfl, by simp, by simp⟩)
  | wakes hi =>
    rw [hj.asleep] at hi
    cases hi
  | sleeps _ _ hgo =>
    rw [hstop] at hgo
    cases hgo
  | exits hw =>
    have hsum := hmoved (v := .exited) hw
    refine .inr (.inl ⟨hjoining _ _ _ _, ?_⟩)
    simp only [PoolState.load, ThreadPool.setWorker, Worker.stepsLeft] at hsum ⊢
    omega
  | @takes _ i task rest hw _ htasks =>
    have hsum := hmoved (v := .running task) hw
    refine .inr (.inl ⟨hjoining _ _ _ _, ?_⟩)
    simp only [PoolState.load, ThreadPool.take, Worker.stepsLeft, htasks, List.length_cons]
      at hsum ⊢
    omega
  | runs hw =>
    have hsum := hmoved (v := .finishing) hw
    refine .inr (.inl ⟨hjoining _ _ _ _, ?_⟩)
    simp only [PoolState.load, ThreadPool.setWorker, Worker.stepsLeft] at hsum ⊢
    omega
  | finishes hw =>
    have hsum := hmoved (v := .waiting) hw
    refine .inr (.inl ⟨hjoining _ _ _ _, ?_⟩)
    simp only [PoolState.load, ThreadPool.finish, Worker.stepsLeft] at hsum ⊢
    omega
  | waitIdle => exact .inr (.inr ⟨⟨hj.destructor, hj.asleep, hj.size⟩, rfl, rfl, by simp, by simp⟩)
  | waitBlocks =>
    exact .inr (.inr ⟨⟨hj.destructor, hj.asleep, hj.size⟩, rfl, rfl, by simp, by simp⟩)
  | waitWakes =>
    exact .inr (.inr ⟨⟨hj.destructor, hj.asleep, hj.size⟩, rfl, rfl, by simp, by simp⟩)
  | waitReturns =>
    exact .inr (.inr ⟨⟨hj.destructor, hj.asleep, hj.size⟩, rfl, rfl, by simp, by simp⟩)
  | stops hd => cases hd.symm.trans hj.destructor
  | notifyAll hd => cases hd.symm.trans hj.destructor
  | joins hd hw =>
    cases hd.symm.trans hj.destructor
    have hlt := (List.getElem?_eq_some_iff.mp hw).1
    rw [hj.size] at hlt
    exact .inl (.inr ⟨hlt, rfl, hj.asleep, hj.size⟩)
  | returns => exact .inl (.inl rfl)

/-- The thread the destructor waits for: worker `k`, or itself when that is gone. -/
def nextThread (workers : List (Worker Nat)) (k : Nat) : Thread :=
  match workers[k]? with
  | none | some .exited => .destructor
  | some _ => .worker k

theorem nextThread_cases (workers : List (Worker Nat)) (k : Nat) :
    nextThread workers k = .destructor ∨ nextThread workers k = .worker k := by
  unfold nextThread
  split
  · exact .inl rfl
  · exact .inl rfl
  · exact .inr rfl

theorem nextThread_ne_other (workers : List (Worker Nat)) (k : Nat) :
    nextThread workers k ≠ .other := by
  rcases nextThread_cases workers k with heq | heq <;> simp [heq]

theorem PoolState.Sound.next_enabled {s : PoolState} {size k : Nat} (hs : s.Sound)
    (hj : s.Joining size k) : ∃ t, PoolStep (nextThread s.pool.workers k) s t := by
  unfold nextThread
  split
  · next hw => exact ⟨_, .returns hj.destructor (List.getElem?_eq_none_iff.mp hw)⟩
  · next hw => exact ⟨_, .joins hj.destructor hw⟩
  · next w hlive hw =>
    have hawake : k ∉ s.asleep := by simp [hj.asleep]
    cases w with
    | waiting =>
      cases htasks : s.pool.tasks with
      | nil => exact ⟨_, .exits hw hawake (hs.stopping (by simp [hj.destructor])) htasks⟩
      | cons front rest => exact ⟨_, .takes hw hawake htasks⟩
    | running task => exact ⟨_, .runs hw⟩
    | finishing => exact ⟨_, .finishes hw⟩
    | exited => exact absurd rfl hlive

theorem joining_leadsTo_next (hfair : PoolFair r) (size k : Nat) :
    r.LeadsTo (PoolState.Joining size k)
      fun s => s.destructor = .joined ∨ k < size ∧ s.Joining size (k + 1) := by
  intro n hn
  refine Run.LeadsTo.descend
    (P := fun load (s : PoolState) => s.Joining size k ∧ s.load = load)
    (Q := fun s => s.destructor = .joined ∨ k < size ∧ s.Joining size (k + 1)) ?_ _ n ⟨hn, rfl⟩
  rintro load n ⟨hj, hload⟩
  refine r.leadsTo_of_fair (hfair _ (nextThread_ne_other (r.state n).pool.workers k))
    (P := fun s => s.Joining size k ∧ s.load = load ∧ s.pool.workers = (r.state n).pool.workers)
    (Q := fun s => (s.destructor = .joined ∨ k < size ∧ s.Joining size (k + 1)) ∨
      ∃ less, less < load ∧ s.Joining size k ∧ s.load = less) ?_ ?_ ?_ n ⟨hj, hload, rfl⟩
  · rintro s t thread hreach ⟨hs, rfl, hworkers⟩ hstep
    rcases (PoolState.reachable_sound hreach).joining_step hs hstep with
      hnext | ⟨ht, hless⟩ | ⟨ht, hsame, hkeep, -⟩
    · exact .inr (.inl hnext)
    · exact .inr (.inr ⟨_, hless, ht, rfl⟩)
    · exact .inl ⟨ht, hsame, hkeep.trans hworkers⟩
  · rintro s t hreach ⟨hs, rfl, -⟩ hstep
    rcases (PoolState.reachable_sound hreach).joining_step hs hstep with
      hnext | ⟨ht, hless⟩ | ⟨-, -, -, hnot, hnone⟩
    · exact .inl hnext
    · exact .inr ⟨_, hless, ht, rfl⟩
    · rcases nextThread_cases (r.state n).pool.workers k with heq | heq
      · exact absurd heq hnot
      · exact absurd heq (hnone k)
  · rintro s hreach ⟨hs, -, hworkers⟩
    rw [← hworkers]
    exact (PoolState.reachable_sound hreach).next_enabled hs

/-- Each join returns, one after the other. -/
theorem joining_leadsTo_joined (hfair : PoolFair r) (size k : Nat) :
    r.LeadsTo (PoolState.Joining size k) fun s => s.destructor = .joined := by
  intro n hn
  refine Run.LeadsTo.descend
    (P := fun left (s : PoolState) => ∃ k, s.Joining size k ∧ size - k = left)
    (Q := fun s => s.destructor = .joined) ?_ _ n ⟨k, hn, rfl⟩
  rintro left n ⟨k, hj, rfl⟩
  obtain ⟨m, hm, hjoined | ⟨hlt, hnext⟩⟩ := joining_leadsTo_next hfair size k n hj
  · exact ⟨m, hm, .inl hjoined⟩
  · exact ⟨m, hm, .inr ⟨size - (k + 1), by omega, k + 1, hnext, rfl⟩⟩

/-- The flag is set, and all workers are about to be woken. -/
theorem stopped_leadsTo_joining (hfair : PoolFair r) :
    r.LeadsTo (fun s => s.destructor = .stopped) fun s => ∃ size, s.Joining size 0 := by
  refine r.leadsTo_of_fair (hfair .destructor (by simp)) ?_ ?_ ?_
  · intro s t thread _ hd hstep
    cases hstep with
    | stops hnot => cases hnot.symm.trans hd
    | notifyAll => exact .inr ⟨_, rfl, rfl, rfl⟩
    | joins hj => cases hj.symm.trans hd
    | returns hj => cases hj.symm.trans hd
    | _ => exact .inl hd
  · intro s t _ hd hstep
    cases hstep with
    | stops hnot => cases hnot.symm.trans hd
    | notifyAll => exact ⟨_, rfl, rfl, rfl⟩
    | joins hj => cases hj.symm.trans hd
    | returns hj => cases hj.symm.trans hd
  · intro s _ hd
    exact ⟨_, .notifyAll hd⟩

theorem PoolStep.joined_stays {s t : PoolState} {thread : Thread} (h : PoolStep thread s t)
    (hd : s.destructor = .joined) : t.destructor = .joined := by
  cases h with
  | stops hnot => cases hnot.symm.trans hd
  | notifyAll hstop => cases hstop.symm.trans hd
  | joins hj => cases hj.symm.trans hd
  | returns => rfl
  | _ => exact hd

/-- A destructor that has not returned is waiting in one of these places. -/
theorem PoolState.joining_sound {s : PoolState}
    (hreach : (poolThreads threads reported).system.Reachable s) :
    ∀ k, s.destructor = .joining k → s.asleep = ∅ := by
  refine hreach.invariant (P := fun s => s.Sound ∧
    ∀ k, s.destructor = .joining k → s.asleep = ∅) ?_ ?_ |>.2
  · rintro _ rfl
    exact ⟨sound_newPool threads reported, fun k hk => by cases hk⟩
  · rintro s t ⟨hs, hinv⟩ ⟨thread, hstep⟩
    refine ⟨hs.step hstep, fun k hk => ?_⟩
    by_cases hj : ∃ j, s.destructor = .joining j
    · obtain ⟨j, hj⟩ := hj
      have hjoin : s.Joining s.pool.workers.length j := ⟨hj, hinv j hj, rfl⟩
      rcases hs.joining_step hjoin hstep with (hjoined | ⟨-, ht⟩) | ⟨ht, -⟩ | ⟨ht, -⟩
      · cases hk.symm.trans hjoined
      · exact ht.asleep
      · exact ht.asleep
      · exact ht.asleep
    · cases hstep with
      | notifyAll => rfl
      | stops => cases hk
      | joins hold => exact absurd ⟨_, hold⟩ hj
      | returns => cases hk
      | _ => exact absurd ⟨k, hk⟩ hj

/-- A destructor that was called returns, with every accepted task executed once. -/
theorem destructor_returns (hfair : PoolFair r) (n : Nat)
    (hcalled : (r.state n).destructor ≠ .notCalled) :
    ∃ m, ∀ k, m ≤ k → (r.state k).destructor = .joined ∧ (r.state k).pool.tasks = [] ∧
      ∀ task, task < (r.state k).accepted → (r.state k).executed.count task = 1 := by
  have hjoin : ∀ n k, (r.state n).destructor = .joining k →
      ∃ m, (r.state m).destructor = .joined := by
    intro n k hd
    have hasleep := PoolState.joining_sound (r.reachable n) k hd
    obtain ⟨m, -, hm⟩ := joining_leadsTo_joined hfair _ k n ⟨hd, hasleep, rfl⟩
    exact ⟨m, hm⟩
  have hjoined : ∃ m, (r.state m).destructor = .joined := by
    cases hd : (r.state n).destructor with
    | notCalled => exact absurd hd hcalled
    | stopped =>
      obtain ⟨m, -, size, hm⟩ := stopped_leadsTo_joining hfair n hd
      exact hjoin m 0 hm.destructor
    | joining k => exact hjoin n k hd
    | joined => exact ⟨n, hd⟩
  obtain ⟨m, hm⟩ := hjoined
  refine ⟨m, fun k hk => ?_⟩
  have hd := r.always (P := fun s => s.destructor = .joined)
    (fun _ _ _ _ hd hstep => PoolStep.joined_stays hstep hd) hk hm
  have hafter := (PoolState.reachable_sound (r.reachable k)).afterJoins hd
  exact ⟨hd, hafter.1, hafter.2.2⟩

/-- The step in which a caller of `wait_idle` returns leaves the pool idle. -/
theorem PoolState.Sound.waiter_returns {s t : PoolState} {thread : Thread} {j : Nat} (hs : s.Sound)
    (hstep : PoolStep thread s t) (hbefore : s.waiters[j]? ≠ some .returned)
    (hafter : t.waiters[j]? = some .returned) :
    t.pool.tasks = [] ∧ ∀ w ∈ t.pool.workers, w.isBusy = false := by
  have hset : ∀ {i : Nat} {w : Waiter}, w ≠ .returned →
      (s.waiters.set i w)[j]? ≠ some .returned := by
    intro i w hw hreturned
    rw [List.getElem?_set] at hreturned
    split at hreturned
    · split at hreturned
      · exact hw (Option.some.inj hreturned)
      · cases hreturned
    · exact hbefore hreturned
  cases hstep with
  | finishes =>
    refine absurd hafter ?_
    dsimp only
    split
    · rw [List.getElem?_map]
      intro hreturned
      obtain ⟨w, hw, heq⟩ := Option.map_eq_some_iff.mp hreturned
      cases w with
      | returned => exact hbefore hw
      | checking => cases heq
      | blocked => cases heq
    · exact hbefore
  | waitIdle =>
    refine absurd hafter fun hreturned => ?_
    rw [List.getElem?_append] at hreturned
    split at hreturned
    · exact hbefore hreturned
    · have hmem := List.mem_of_getElem? hreturned
      simp at hmem
  | waitBlocks => exact absurd hafter (hset (by simp))
  | waitWakes => exact absurd hafter (hset (by simp))
  | waitReturns _ hidle => exact hs.idle hidle
  | _ => exact absurd hafter hbefore

/-- A `wait_idle` returns only where nothing is queued and no worker is in a call. -/
theorem wait_idle_returns {s t : PoolState} {thread : Thread} {j : Nat}
    (hreach : (poolThreads threads reported).system.Reachable s) (hstep : PoolStep thread s t)
    (hbefore : s.waiters[j]? ≠ some .returned) (hafter : t.waiters[j]? = some .returned) :
    t.pool.tasks = [] ∧ ∀ w ∈ t.pool.workers, w.isBusy = false :=
  (PoolState.reachable_sound hreach).waiter_returns hstep hbefore hafter

/-- No accepted task is lost and none is executed twice: each is queued, in a call or done, in one
place; it is done at last where the threads of the pool go on moving, and it is done when the joins
have returned, with nothing queued or running. A `wait_idle` returns to an idle pool. -/
theorem pool_keeps_tasks (threads reported : Nat) :
    (∀ s : PoolState, (poolThreads threads reported).system.Reachable s →
      (∀ task, s.places task = if task < s.accepted then 1 else 0) ∧
      (∀ task, s.executed.count task ≤ 1) ∧
      (s.destructor = .joined → s.pool.tasks = [] ∧ (∀ w ∈ s.pool.workers, w.isBusy = false) ∧
        ∀ task, task < s.accepted → s.executed.count task = 1)) ∧
    (∀ r : Run (poolThreads threads reported), PoolFair r → ∀ n task,
      task < (r.state n).accepted → ∃ m, ∀ k, m ≤ k → (r.state k).executed.count task = 1) ∧
    ∀ (s t : PoolState) (thread : Thread) (j : Nat),
      (poolThreads threads reported).system.Reachable s → PoolStep thread s t →
      s.waiters[j]? ≠ some .returned → t.waiters[j]? = some .returned →
      t.pool.tasks = [] ∧ ∀ w ∈ t.pool.workers, w.isBusy = false := by
  refine ⟨fun s hreach => ?_, fun r hfair n task htask => executed_at_last hfair n task htask,
    fun s t thread j hreach hstep => (PoolState.reachable_sound hreach).waiter_returns hstep⟩
  have hs := PoolState.reachable_sound hreach
  refine ⟨hs.places, hs.executed_le, fun hd => ?_⟩
  obtain ⟨hnil, hexited, hdone⟩ := hs.afterJoins hd
  exact ⟨hnil, fun w hw => hexited w hw ▸ rfl, hdone⟩

end Live

section OneTask

/-- A pool of one worker: a task is submitted and called, and the pool is destroyed. -/
def oneTask : List PoolState :=
  let at_ (tasks : List Nat) (active : Nat) (stopping : Bool) (worker : Worker Nat)
      (accepted : Nat) (executed : List Nat) (unsent : Nat) (destructor : Destructor) : PoolState :=
    { pool := { tasks := tasks, active := active, stopping := stopping, workers := [worker] },
      accepted := accepted, executed := executed, asleep := ∅, unsent := unsent, waiters := [],
      destructor := destructor }
  [at_ [] 0 false .waiting 0 [] 0 .notCalled,
    at_ [0] 0 false .waiting 1 [] 1 .notCalled,
    at_ [] 1 false (.running 0) 1 [] 1 .notCalled,
    at_ [] 1 false .finishing 1 [0] 1 .notCalled,
    at_ [] 0 false .waiting 1 [0] 1 .notCalled,
    at_ [] 0 false .waiting 1 [0] 0 .notCalled,
    at_ [] 0 true .waiting 1 [0] 0 .stopped,
    at_ [] 0 true .waiting 1 [0] 0 (.joining 0),
    at_ [] 0 true .exited 1 [0] 0 (.joining 0),
    at_ [] 0 true .exited 1 [0] 0 (.joining 1)]

def destroyedPool : PoolState :=
  { pool := { tasks := [], active := 0, stopping := true, workers := [.exited] },
    accepted := 1, executed := [0], asleep := ∅, unsent := 0, waiters := [], destructor := .joined }

theorem oneTask_step (n : Nat) :
    oneTask.getD (n + 1) destroyedPool = oneTask.getD n destroyedPool ∨
      ∃ thread, PoolStep thread (oneTask.getD n destroyedPool)
        (oneTask.getD (n + 1) destroyedPool) := by
  by_cases hn : n < 10
  · right
    interval_cases n
    · exact ⟨_, .submit (p := ⟨[0], 0, false, [.waiting]⟩) rfl⟩
    · exact ⟨_, @PoolStep.takes _ 0 0 [] rfl (by simp [oneTask]) rfl⟩
    · exact ⟨_, @PoolStep.runs _ 0 0 rfl⟩
    · exact ⟨_, .finishes (i := 0) rfl⟩
    · exact ⟨_, .notifyNone (by simp [oneTask]) rfl⟩
    · exact ⟨_, .stops rfl⟩
    · exact ⟨_, .notifyAll rfl⟩
    · exact ⟨_, .exits (i := 0) rfl (by simp [oneTask]) rfl rfl⟩
    · exact ⟨_, .joins (i := 0) rfl rfl⟩
    · exact ⟨_, .returns (i := 1) rfl (by simp [oneTask])⟩
  · left
    rw [List.getD_eq_default _ _ (by simp [oneTask]; omega),
      List.getD_eq_default _ _ (by simp [oneTask]; omega)]

def oneTaskRun : Run (poolThreads 1 1) where
  state n := oneTask.getD n destroyedPool
  start := rfl
  step := oneTask_step

/-- Nothing is left to move once the pool is destroyed. -/
theorem oneTaskRun_fair : PoolFair oneTaskRun := by
  intro thread hthread n henabled
  obtain ⟨t, ht⟩ := henabled (n + 10) (Nat.le_add_right n 10)
  have hlast : oneTaskRun.state (n + 10) = destroyedPool := by
    have hlen : oneTask.length ≤ n + 10 := by simp [oneTask]
    exact List.getD_eq_default oneTask destroyedPool hlen
  have hworker : ∀ {i : Nat} {w : Worker Nat}, destroyedPool.pool.workers[i]? = some w →
      w = .exited := by
    intro i w hw
    have hmem := List.mem_of_getElem? hw
    simpa [destroyedPool] using hmem
  rw [hlast] at ht
  cases ht with
  | notifyOne hunsent => cases hunsent
  | notifyNone hunsent => cases hunsent
  | sleeps hw => cases hworker hw
  | exits hw => cases hworker hw
  | takes hw => cases hworker hw
  | runs hw => cases hworker hw
  | finishes hw => cases hworker hw
  | stops hd => cases hd
  | notifyAll hd => cases hd
  | joins hd => cases hd
  | returns hd => cases hd
  | _ => exact absurd rfl hthread

theorem accepted_executed_one_task :
    (∀ k, (oneTaskRun.state k).executed.count 0 ≤ 1) ∧
      ∃ m, ∀ k, m ≤ k → (oneTaskRun.state k).executed.count 0 = 1 :=
  accepted_executed oneTaskRun_fair 1 0 (by decide)

theorem destructor_returns_one_task :
    ∃ m, ∀ k, m ≤ k → (oneTaskRun.state k).destructor = .joined ∧
      (oneTaskRun.state k).pool.tasks = [] ∧
      ∀ task, task < (oneTaskRun.state k).accepted →
        (oneTaskRun.state k).executed.count task = 1 :=
  destructor_returns oneTaskRun_fair 6 (by decide)

/-- The pool of one worker with its task taken, and one caller of `wait_idle`. -/
def waitedPool (active : Nat) (worker : Worker Nat) (executed : List Nat) (waiter : Waiter) :
    PoolState :=
  { pool := { tasks := [], active := active, stopping := false, workers := [worker] },
    accepted := 1, executed := executed, asleep := ∅, unsent := 1, waiters := [waiter],
    destructor := .notCalled }

/-- The caller finds the task running and blocks. -/
theorem waitedPool_blocked_reachable :
    (poolThreads 1 1).system.Reachable (waitedPool 1 (.running 0) [] .blocked) := by
  have hnew : (poolThreads 1 1).system.Reachable (newPool 1 1) := .start rfl
  have hsubmitted := hnew.step ⟨.other, .submit (p := ⟨[0], 0, false, [.waiting]⟩) rfl⟩
  have htaken := hsubmitted.step
    ⟨_, @PoolStep.takes _ 0 0 [] rfl (by simp [newPool]) rfl⟩
  have hchecking := htaken.step ⟨.other, .waitIdle⟩
  exact hchecking.step ⟨.other, .waitBlocks (j := 0) rfl (by decide)⟩

/-- The task ends, and its worker notifies the caller. -/
theorem waitedPool_notified_reachable :
    (poolThreads 1 1).system.Reachable (waitedPool 0 .waiting [0] .checking) := by
  have hran := waitedPool_blocked_reachable.step ⟨_, @PoolStep.runs _ 0 0 rfl⟩
  exact hran.step ⟨_, .finishes (i := 0) rfl⟩

/-- A caller of `wait_idle` that blocked while the task was running. -/
theorem wait_idle_returns_after_task :
    (poolThreads 1 1).system.Reachable (waitedPool 1 (.running 0) [] .blocked) ∧
      (waitedPool 0 .waiting [0] .returned).pool.tasks = [] ∧
      ∀ w ∈ (waitedPool 0 .waiting [0] .returned).pool.workers, w.isBusy = false := by
  have hstep : PoolStep .other (waitedPool 0 .waiting [0] .checking)
      (waitedPool 0 .waiting [0] .returned) := .waitReturns (j := 0) rfl ⟨rfl, rfl⟩
  have hidle := wait_idle_returns (j := 0) waitedPool_notified_reachable hstep
    (by simp [waitedPool]) rfl
  exact ⟨waitedPool_blocked_reachable, hidle⟩

/-- A task that is taken, run and waited for, and a pool destroyed after it. -/
theorem pool_keeps_tasks_one_task :
    (destroyedPool.pool.tasks = [] ∧ destroyedPool.executed.count 0 = 1) ∧
      (∃ m, ∀ k, m ≤ k → (oneTaskRun.state k).executed.count 0 = 1) ∧
      (waitedPool 1 (.running 0) [] .blocked).places 0 = 1 ∧
      ∀ w ∈ (waitedPool 0 .waiting [0] .returned).pool.workers, w.isBusy = false := by
  obtain ⟨hreachable, hfair, hidle⟩ := pool_keeps_tasks 1 1
  obtain ⟨-, -, hjoined⟩ := hreachable _ (oneTaskRun.reachable 10)
  obtain ⟨hnil, -, hdone⟩ := hjoined rfl
  have hstep : PoolStep .other (waitedPool 0 .waiting [0] .checking)
      (waitedPool 0 .waiting [0] .returned) := .waitReturns (j := 0) rfl ⟨rfl, rfl⟩
  exact ⟨⟨hnil, hdone 0 Nat.one_pos⟩, hfair oneTaskRun oneTaskRun_fair 1 0 (by decide),
    (hreachable _ waitedPool_blocked_reachable).1 0,
    (hidle _ _ _ 0 waitedPool_notified_reachable hstep (by simp [waitedPool]) rfl).2⟩

end OneTask

end VectorDb.Concurrency
