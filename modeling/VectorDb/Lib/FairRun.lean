import VectorDb.Lib.Transition

/-!
Infinite runs of several threads, and what must happen in them when a thread
that can always move does move.
-/
set_option autoImplicit false

namespace VectorDb.Lib

/-- A system whose steps are taken by threads. -/
structure Threads (ι σ : Type) where
  start : σ → Prop
  step : ι → σ → σ → Prop

variable {ι σ : Type} {T : Threads ι σ}

def Threads.system (T : Threads ι σ) : Transition σ where
  start := T.start
  step s t := ∃ i, T.step i s t

def Threads.Enabled (T : Threads ι σ) (i : ι) (s : σ) : Prop := ∃ t, T.step i s t

/-- The states at all moments; at a moment where no thread moves the state stays. -/
structure Run (T : Threads ι σ) where
  state : Nat → σ
  start : T.start (state 0)
  step (n : Nat) : state (n + 1) = state n ∨ ∃ i, T.step i (state n) (state (n + 1))

/-- A thread that can move at all moments from `n` on moves at one of them. -/
def Run.Fair (r : Run T) (i : ι) : Prop :=
  ∀ n, (∀ m, n ≤ m → T.Enabled i (r.state m)) →
    ∃ m, n ≤ m ∧ T.step i (r.state m) (r.state (m + 1))

/-- Whenever `P` holds, `Q` holds then or later. -/
def Run.LeadsTo (r : Run T) (P Q : σ → Prop) : Prop :=
  ∀ n, P (r.state n) → ∃ m, n ≤ m ∧ Q (r.state m)

theorem Run.reachable (r : Run T) (n : Nat) : T.system.Reachable (r.state n) := by
  induction n with
  | zero => exact .start r.start
  | succ n ih =>
    rcases r.step n with heq | hstep
    · rw [heq]
      exact ih
    · exact ih.step hstep

/-- What every step keeps holds from one moment on. -/
theorem Run.always (r : Run T) {P : σ → Prop}
    (hstep : ∀ s t i, T.system.Reachable s → P s → T.step i s t → P t) {n m : Nat} (hle : n ≤ m)
    (h : P (r.state n)) : P (r.state m) := by
  induction m, hle using Nat.le_induction with
  | base => exact h
  | succ m _ ih =>
    rcases r.step m with heq | ⟨i, hi⟩
    · rw [heq]
      exact ih
    · exact hstep _ _ i (r.reachable m) ih hi

theorem Run.LeadsTo.trans {r : Run T} {P Q R : σ → Prop} (hpq : r.LeadsTo P Q)
    (hqr : r.LeadsTo Q R) : r.LeadsTo P R := by
  intro n hn
  obtain ⟨m, hm, hq⟩ := hpq n hn
  obtain ⟨k, hk, hr⟩ := hqr m hq
  exact ⟨k, hm.trans hk, hr⟩

/-- Until a fair thread moves `P` stays, and its move brings `Q`. -/
theorem Run.leadsTo_of_fair (r : Run T) {i : ι} (hfair : r.Fair i) {P Q : σ → Prop}
    (hstay : ∀ s t j, T.system.Reachable s → P s → T.step j s t → P t ∨ Q t)
    (hmove : ∀ s t, T.system.Reachable s → P s → T.step i s t → Q t)
    (henabled : ∀ s, T.system.Reachable s → P s → T.Enabled i s) : r.LeadsTo P Q := by
  intro n hn
  by_contra hnever
  have hnot : ∀ m, n ≤ m → ¬ Q (r.state m) := fun m hm hq => hnever ⟨m, hm, hq⟩
  have hP : ∀ m, n ≤ m → P (r.state m) := by
    intro m hm
    induction m, hm using Nat.le_induction with
    | base => exact hn
    | succ m hm ih =>
      rcases r.step m with heq | ⟨j, hj⟩
      · rw [heq]
        exact ih
      · exact (hstay _ _ j (r.reachable m) ih hj).resolve_right (hnot (m + 1) (by omega))
  obtain ⟨m, hm, hstep⟩ := hfair n fun m hm => henabled _ (r.reachable m) (hP m hm)
  exact hnot (m + 1) (by omega) (hmove _ _ (r.reachable m) (hP m hm) hstep)

/-- A measure that keeps going down until `Q` holds. -/
theorem Run.LeadsTo.descend {r : Run T} {P : Nat → σ → Prop} {Q : σ → Prop}
    (h : ∀ a, r.LeadsTo (P a) fun s => Q s ∨ ∃ b, b < a ∧ P b s) (a : Nat) :
    r.LeadsTo (P a) Q := by
  induction a using Nat.strong_induction_on with
  | _ a ih =>
    intro n hn
    obtain ⟨m, hm, hq | ⟨b, hb, hp⟩⟩ := h a n hn
    · exact ⟨m, hm, hq⟩
    · obtain ⟨k, hk, hq⟩ := ih b hb m hp
      exact ⟨k, hm.trans hk, hq⟩

end VectorDb.Lib
