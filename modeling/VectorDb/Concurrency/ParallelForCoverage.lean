import VectorDb.Concurrency.ParallelFor

/-!
The chunks that `parallel_for` cuts `[0, count)` into, and the indices that its runs visit.
-/
set_option autoImplicit false

namespace VectorDb.Concurrency

open VectorDb.Lib

/-- The steps in which the body is called, with the index it is called on. -/
inductive Visit (throws : Nat → Bool) (count : Nat) : CallState → Nat → CallState → Prop where
  | body {s : CallState} {w id next stop : Nat} :
      s.pool.workers[w]? = some (.running (.chunk id next stop)) → next < stop →
      throws next = false →
      Visit throws count s next
        { s with pool := s.pool.setWorker w (.running (.chunk id (next + 1) stop)) }
  | bodyThrow {s : CallState} {w id next stop : Nat} :
      s.pool.workers[w]? = some (.running (.chunk id next stop)) → next < stop →
      throws next = true →
      Visit throws count s next
        ⟨s.pool.setWorker w .finishing, s.futures.set id .exception, s.caller⟩
  | inlineBody {s : CallState} {i : Nat} :
      s.caller = .inline i → i < count → throws i = false →
      Visit throws count s i { s with caller := .inline (i + 1) }
  | inlineThrow {s : CallState} {i : Nat} :
      s.caller = .inline i → i < count → throws i = true →
      Visit throws count s i { s with caller := .rethrown }

/-- A call that keeps a log of the indices its body was called on. -/
inductive LoggedStep (throws : Nat → Bool) (count : Nat) :
    CallState × List Nat → CallState × List Nat → Prop where
  | visit {s t : CallState} {i : Nat} {log : List Nat} :
      Visit throws count s i t → LoggedStep throws count (s, log) (t, log ++ [i])
  | quiet {s t : CallState} {log : List Nat} :
      CallStep count throws s t → (∀ i, ¬ Visit throws count s i t) →
      LoggedStep throws count (s, log) (t, log)

def loggedCall (count workers : Nat) (throws : Nat → Bool) :
    Transition (CallState × List Nat) :=
  ⟨fun s => CallStart count workers s.1 ∧ s.2 = [], LoggedStep throws count⟩

theorem Visit.step {throws : Nat → Bool} {count i : Nat} {s t : CallState}
    (h : Visit throws count s i t) : CallStep count throws s t := by
  cases h with
  | body hw hlt hth => exact .body hw hlt hth
  | bodyThrow hw hlt hth => exact .bodyThrow hw hlt hth
  | inlineBody hc hlt hth => exact .inlineBody hc hlt hth
  | inlineThrow hc hlt hth => exact .inlineThrow hc hlt hth

theorem exists_log {count workers : Nat} {throws : Nat → Bool} {s : CallState}
    (h : (parallelFor count workers throws).Reachable s) :
    ∃ log, (loggedCall count workers throws).Reachable (s, log) := by
  induction h with
  | start h0 => exact ⟨[], .start ⟨h0, rfl⟩⟩
  | @step s t _ hs ih =>
    obtain ⟨log, hlog⟩ := ih
    by_cases hv : ∃ i, Visit throws count s i t
    · obtain ⟨i, hi⟩ := hv
      exact ⟨log ++ [i], hlog.step (.visit hi)⟩
    · exact ⟨log, hlog.step (.quiet hs (not_exists.mp hv))⟩

section Sizes
variable {count workers : Nat}

end Sizes

section Chunks
variable {count workers : Nat}

end Chunks

/-- The indices that a part of the state has still to visit. -/
def Task.remaining : Task → Multiset Nat
  | .chunk _ next stop => List.Ico next stop
  | .other _ => 0

def Worker.remaining : Worker Task → Multiset Nat
  | .running task => task.remaining
  | _ => 0

def Caller.remaining (count workers : Nat) : Caller → Multiset Nat
  | .inline i => List.Ico i count
  | .submitting chunk => List.Ico (chunkBegin count workers chunk) count
  | _ => 0

def ThreadPool.remaining (p : ThreadPool Task) : Multiset Nat :=
  (p.tasks.map Task.remaining).sum + (p.workers.map Worker.remaining).sum

section Remaining
variable {p : ThreadPool Task}

end Remaining

section Submission
variable {count workers : Nat} {throws : Nat → Bool} {s : CallState}

end Submission

section Balance
variable {count workers : Nat} {s t : CallState} {log : List Nat}

end Balance

end VectorDb.Concurrency
