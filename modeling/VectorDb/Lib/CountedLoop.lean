import Mathlib

/-!
A loop that counts up by a step while enough of its range is left, with a body that may fail.
-/
set_option autoImplicit false

namespace VectorDb.Lib

variable {σ : Type} {need bound step : Nat} {body : Nat → σ → Option σ}

/-- `for (; i + need <= bound; i += step)`: where it ends, and with what. -/
def forLoop (need bound step : Nat) (body : Nat → σ → Option σ) (i : Nat) (s : σ) :
    Option (Nat × σ) :=
  if 0 < step ∧ i + need ≤ bound then do
    forLoop need bound step body (i + step) (← body i s)
  else some (i, s)
termination_by bound + 1 - i

theorem forLoop_step {i : Nat} {s t : σ} (hstep : 0 < step) (hguard : i + need ≤ bound)
    (hbody : body i s = some t) :
    forLoop need bound step body i s = forLoop need bound step body (i + step) t := by
  rw [forLoop, if_pos ⟨hstep, hguard⟩, hbody]
  rfl

theorem forLoop_exit {i : Nat} {s : σ} (hguard : ¬ i + need ≤ bound) :
    forLoop need bound step body i s = some (i, s) := by
  rw [forLoop, if_neg fun h => hguard h.2]

/-- A loop whose body never fails is a fold over the indices it visits. -/
theorem forLoop_eq_foldl (g : Nat → σ → σ) (n : Nat) {i : Nat} {s : σ} (hstep : 0 < step)
    (hguard : ∀ k, k < n → i + step * k + need ≤ bound)
    (hexit : ¬ i + step * n + need ≤ bound)
    (hbody : ∀ k t, k < n → body (i + step * k) t = some (g (i + step * k) t)) :
    forLoop need bound step body i s =
      some (i + step * n, (List.range n).foldl (fun t k => g (i + step * k) t) s) := by
  induction n generalizing i s with
  | zero => exact forLoop_exit hexit
  | succ n ih =>
    have hshift : ∀ k, i + step + step * k = i + step * (k + 1) := by
      intro k
      rw [Nat.mul_succ]
      omega
    have hrest := @ih (i + step) (g i s)
      (fun k hk => hshift k ▸ hguard (k + 1) (by omega)) (hshift n ▸ hexit)
      (fun k t hk => hshift k ▸ hbody (k + 1) t (by omega))
    have hfits : i + need ≤ bound := hguard 0 (by omega)
    have hfirst : body i s = some (g i s) := hbody 0 s (by omega)
    rw [forLoop_step hstep hfits hfirst, hrest, List.range_succ_eq_map, List.foldl_cons, List.foldl_map]
    simp only [hshift, Nat.succ_eq_add_one, Nat.mul_zero, Nat.add_zero]

end VectorDb.Lib
