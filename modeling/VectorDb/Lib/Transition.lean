import Mathlib

/-!
Transition systems: which states a system reaches, and the one induction every
invariant of a run rests on.
-/
set_option autoImplicit false

namespace VectorDb.Lib

/-- A system is the states it may start in and the steps it may take. -/
structure Transition (σ : Type) where
  start : σ → Prop
  step : σ → σ → Prop

variable {σ : Type} {T : Transition σ}

/-- Every state of every run. -/
inductive Transition.Reachable (T : Transition σ) : σ → Prop where
  | start {s : σ} : T.start s → T.Reachable s
  | step {s t : σ} : T.Reachable s → T.step s t → T.Reachable t

theorem Transition.Reachable.run {s t : σ} (h : T.Reachable s)
    (hr : Relation.ReflTransGen T.step s t) : T.Reachable t := by
  induction hr with
  | refl => exact h
  | tail _ hs ih => exact ih.step hs

/-- What holds at the start and is kept by every step holds in every run. -/
theorem Transition.Reachable.invariant {P : σ → Prop}
    (hstart : ∀ s, T.start s → P s) (hstep : ∀ s t, P s → T.step s t → P t)
    {s : σ} (h : T.Reachable s) : P s := by
  induction h with
  | start h0 => exact hstart _ h0
  | step _ hs ih => exact hstep _ _ ih hs

end VectorDb.Lib
