import Mathlib

/-!
Division rounded to the nearest natural, ties to the even one.
-/
set_option autoImplicit false

namespace VectorDb.Lib

def roundHalfEven (n s : Nat) : Nat :=
  if s < 2 * (n % s) ∨ (2 * (n % s) = s ∧ n / s % 2 = 1) then n / s + 1 else n / s

theorem div_le_roundHalfEven (n s : Nat) : n / s ≤ roundHalfEven n s := by
  unfold roundHalfEven
  split <;> omega

theorem roundHalfEven_le (n s : Nat) : roundHalfEven n s ≤ n / s + 1 := by
  unfold roundHalfEven
  split <;> omega

theorem roundHalfEven_mono {m n : Nat} (h : m ≤ n) (s : Nat) :
    roundHalfEven m s ≤ roundHalfEven n s := by
  have hdiv : m / s ≤ n / s := Nat.div_le_div_right h
  rcases Nat.lt_or_eq_of_le hdiv with hlt | heq
  · calc roundHalfEven m s ≤ m / s + 1 := roundHalfEven_le m s
      _ ≤ n / s := hlt
      _ ≤ roundHalfEven n s := div_le_roundHalfEven n s
  · have hmod : m % s ≤ n % s := by
      have hm := Nat.div_add_mod m s
      have hn := Nat.div_add_mod n s
      rw [heq] at hm
      omega
    unfold roundHalfEven
    rw [heq]
    split
    next hup =>
      rw [if_pos (by omega)]
    next => split <;> omega

end VectorDb.Lib
