import VectorDb.Lib.Rounding

/-!
Fractions scaled by a power of a base and rounded to the nearest natural: the value of
what is left, and how far it is from the fraction.
-/
set_option autoImplicit false

namespace VectorDb.Lib

/-- `num / den * base ^ k`, rounded. -/
def scaled (base num den : Nat) (k : Int) : Nat :=
  if 0 ≤ k then roundHalfEven (num * base ^ k.toNat) den
  else roundHalfEven num (den * base ^ (-k).toNat)

/-- The exponent of the first digit of a fraction. -/
def fractionLog (base num den : Nat) : Int :=
  if den ≤ num then Nat.log base (num / den) else -(Nat.clog base ((den + num - 1) / num) : Int)

section Rounding
variable {n s m : Nat}

theorem abs_roundHalfEven_sub (hs : 0 < s) : |(roundHalfEven n s : ℚ) - n / s| ≤ 1 / 2 := by
  have hs' : (0 : ℚ) < s := by exact_mod_cast hs
  have hdiv : (n : ℚ) / s = (n / s : Nat) + (n % s : Nat) / s := by
    rw [div_eq_iff hs'.ne', add_mul, div_mul_cancel₀ _ hs'.ne']
    exact_mod_cast (Nat.div_add_mod' n s).symm
  rw [hdiv, abs_le]
  unfold roundHalfEven
  split
  next hup =>
    have hhalf : (s : ℚ) ≤ 2 * (n % s : Nat) := by exact_mod_cast hup.elim le_of_lt fun h => h.1.ge
    have hlt : ((n % s : Nat) : ℚ) < s := by exact_mod_cast Nat.mod_lt n hs
    have h1 : (1 : ℚ) / 2 ≤ (n % s : Nat) / s := by rw [div_le_div_iff₀ two_pos hs']; linarith
    have h2 : ((n % s : Nat) : ℚ) / s ≤ 1 := by rw [div_le_one hs']; exact hlt.le
    push_cast
    constructor <;> linarith
  next hdown =>
    have hhalf : 2 * ((n % s : Nat) : ℚ) ≤ s := by
      exact_mod_cast not_lt.mp fun h => hdown (.inl h)
    have h1 : ((n % s : Nat) : ℚ) / s ≤ 1 / 2 := by rw [div_le_div_iff₀ hs' two_pos]; linarith
    have h2 : (0 : ℚ) ≤ (n % s : Nat) / s := by positivity
    constructor <;> linarith

/-- Naturals within a half are the same, so the nearest one is what is left. -/
theorem eq_of_near {a b : Nat} {q : ℚ} (ha : |(a : ℚ) - q| ≤ 1 / 2) (hb : |(b : ℚ) - q| < 1 / 2) :
    a = b := by
  rw [abs_le] at ha
  rw [abs_lt] at hb
  have h1 : (a : ℚ) < b + 1 := by linarith
  have h2 : (b : ℚ) < a + 1 := by linarith
  have h1' : a < b + 1 := by exact_mod_cast h1
  have h2' : b < a + 1 := by exact_mod_cast h2
  omega

end Rounding

section Scaled
variable {base num den : Nat} {k : Int}

theorem abs_scaled_sub (hbase : 0 < base) (hden : 0 < den) :
    |(scaled base num den k : ℚ) - num / den * (base : ℚ) ^ k| ≤ 1 / 2 := by
  have hb : (base : ℚ) ≠ 0 := by exact_mod_cast hbase.ne'
  have hd : (den : ℚ) ≠ 0 := by exact_mod_cast hden.ne'
  unfold scaled
  split
  next hk =>
    obtain ⟨j, rfl⟩ := Int.eq_ofNat_of_zero_le hk
    have hround := abs_roundHalfEven_sub (n := num * base ^ j) hden
    have heq : (num : ℚ) / den * (base : ℚ) ^ (j : Int) = (num * base ^ j : Nat) / den := by
      rw [zpow_natCast]
      push_cast
      ring
    rw [heq, Int.toNat_natCast]
    exact hround
  next hk =>
    obtain ⟨j, hj⟩ := Int.eq_ofNat_of_zero_le (a := -k) (by omega)
    obtain rfl : k = -(j : Int) := by omega
    have hround := abs_roundHalfEven_sub (n := num) (s := den * base ^ j)
      (Nat.mul_pos hden (pow_pos hbase j))
    have heq : (num : ℚ) / den * (base : ℚ) ^ (-(j : Int)) = num / (den * base ^ j : Nat) := by
      rw [zpow_neg, zpow_natCast]
      push_cast
      field_simp
    rw [heq, neg_neg, Int.toNat_natCast]
    exact hround

/-- What is within a half of the scaled fraction is what is left of it. -/
theorem scaled_eq (hbase : 0 < base) (hden : 0 < den) {m : Nat}
    (hm : |(m : ℚ) - num / den * (base : ℚ) ^ k| < 1 / 2) : scaled base num den k = m :=
  eq_of_near (abs_scaled_sub hbase hden) hm

theorem ceil_div (hnum : 0 < num) : ⌈(den : ℚ) / num⌉₊ = (den + num - 1) / num := by
  have hn : (0 : ℚ) < num := by exact_mod_cast hnum
  refine eq_of_forall_ge_iff fun k => ?_
  rw [Nat.ceil_le, div_le_iff₀ hn, ← Nat.lt_succ_iff, Nat.div_lt_iff_lt_mul hnum]
  have hcast : (den : ℚ) ≤ k * num ↔ den ≤ k * num := by exact_mod_cast Iff.rfl
  rw [hcast, Nat.succ_mul]
  omega

theorem fractionLog_eq (hnum : 0 < num) (hden : 0 < den) :
    fractionLog base num den = Int.log base ((num : ℚ) / den) := by
  have hn : (0 : ℚ) < num := by exact_mod_cast hnum
  have hd : (0 : ℚ) < den := by exact_mod_cast hden
  unfold fractionLog Int.log
  split
  next hle =>
    rw [if_pos (by rw [one_le_div hd]; exact_mod_cast hle), Nat.floor_div_eq_div]
  next hlt =>
    rw [if_neg (by rw [one_le_div hd]; exact_mod_cast hlt)]
    rw [inv_div, ceil_div hnum]

theorem zpow_fractionLog_le (hbase : 1 < base) (hnum : 0 < num) (hden : 0 < den) :
    (base : ℚ) ^ fractionLog base num den ≤ num / den := by
  rw [fractionLog_eq hnum hden]
  exact Int.zpow_log_le_self hbase (by positivity)

theorem lt_zpow_fractionLog (hbase : 1 < base) (hnum : 0 < num) (hden : 0 < den) :
    (num : ℚ) / den < (base : ℚ) ^ (fractionLog base num den + 1) := by
  rw [fractionLog_eq hnum hden]
  exact Int.lt_zpow_succ_log_self hbase _

end Scaled

end VectorDb.Lib
