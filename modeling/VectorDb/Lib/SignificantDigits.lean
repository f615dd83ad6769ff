import VectorDb.Lib.ScaledFraction

/-!
Fractions in `p` significant decimal digits, and in binary with `p` bits: enough digits
give the same bits back.
-/
set_option autoImplicit false

namespace VectorDb.Lib

/-- The first digits of a fraction and the exponent of the first of them; rounding may carry
into one more. -/
def significantDigits (p num den : Nat) : Nat × Int :=
  let x := fractionLog 10 num den
  let d := scaled 10 num den (p - 1 - x)
  if d = 10 ^ p then (10 ^ (p - 1), x + 1) else (d, x)

/-- `n * 10 ^ k` as a fraction. -/
def decimalFraction (n : Nat) (k : Int) : Nat × Nat :=
  if 0 ≤ k then (n * 10 ^ k.toNat, 1) else (n, 10 ^ (-k).toNat)

/-- Nearest in the binary numbers of `p` bits from an exponent on, ties to even: the bits
behind the leading one, above them the steps of the exponent. -/
def nearestCode (p : Nat) (minExponent : Int) (num den : Nat) : Nat :=
  let e := max minExponent (fractionLog 2 num den - (p - 1))
  (e - minExponent).toNat * 2 ^ (p - 1) + scaled 2 num den (-e)

theorem decimalFraction_value (n : Nat) (k : Int) :
    ((decimalFraction n k).1 : ℚ) / (decimalFraction n k).2 = n * (10 : ℚ) ^ k := by
  unfold decimalFraction
  split
  next hk =>
    obtain ⟨j, rfl⟩ := Int.eq_ofNat_of_zero_le hk
    simp
  next hk =>
    obtain ⟨j, hj⟩ := Int.eq_ofNat_of_zero_le (a := -k) (by omega)
    obtain rfl : k = -(j : Int) := by omega
    simp [div_eq_mul_inv]

theorem decimalFraction_pos (n : Nat) (k : Int) : 0 < (decimalFraction n k).2 := by
  unfold decimalFraction
  split
  · exact Nat.one_pos
  · exact pow_pos (by decide) _

/-- How close `p` digits are to a fraction. -/
structure Significant (p : Nat) (q : ℚ) (d : Nat) (x : Int) : Prop where
  lower : 10 ^ (p - 1) ≤ d
  upper : d < 10 ^ p
  near : |(d : ℚ) * (10 : ℚ) ^ (x - (p - 1)) - q| ≤ q * (1 / 2 * (10 : ℚ) ^ (1 - (p : Int)))

section Digits
variable {p num den : Nat}

/-- What is within a half of the fraction's first `p` digits is close to the fraction. -/
theorem near_of_scaled {q : ℚ} {x : Int} {d : Nat} (hlow : (10 : ℚ) ^ x ≤ q)
    (hround : |(d : ℚ) - q * (10 : ℚ) ^ ((p : Int) - 1 - x)| ≤ 1 / 2) :
    |(d : ℚ) * (10 : ℚ) ^ (x - (p - 1)) - q| ≤ q * (1 / 2 * (10 : ℚ) ^ (1 - (p : Int))) := by
  have hpos : (0 : ℚ) < (10 : ℚ) ^ (x - (p - 1)) := by positivity
  have hunit : (10 : ℚ) ^ ((p : Int) - 1 - x) * (10 : ℚ) ^ (x - (p - 1)) = 1 := by
    rw [← zpow_add₀ (by norm_num)]
    simp
  calc |(d : ℚ) * (10 : ℚ) ^ (x - (p - 1)) - q|
      = |((d : ℚ) - q * (10 : ℚ) ^ ((p : Int) - 1 - x)) * (10 : ℚ) ^ (x - (p - 1))| := by
        rw [sub_mul, mul_assoc, hunit, mul_one]
    _ = |(d : ℚ) - q * (10 : ℚ) ^ ((p : Int) - 1 - x)| * (10 : ℚ) ^ (x - (p - 1)) := by
        rw [abs_mul, abs_of_pos hpos]
    _ ≤ 1 / 2 * (10 : ℚ) ^ (x - (p - 1)) := by gcongr
    _ = (10 : ℚ) ^ x * (1 / 2 * (10 : ℚ) ^ (1 - (p : Int))) := by
        rw [show x - ((p : Int) - 1) = x + (1 - p) by ring, zpow_add₀ (by norm_num)]
        ring
    _ ≤ q * (1 / 2 * (10 : ℚ) ^ (1 - (p : Int))) := by gcongr

theorem significantDigits_spec (hp : 0 < p) (hnum : 0 < num) (hden : 0 < den) :
    Significant p (num / den) (significantDigits p num den).1 (significantDigits p num den).2 := by
  have hlow : (10 : ℚ) ^ fractionLog 10 num den ≤ num / den := by
    exact_mod_cast zpow_fractionLog_le (by decide) hnum hden
  have hhigh : (num : ℚ) / den < (10 : ℚ) ^ (fractionLog 10 num den + 1) := by
    exact_mod_cast @lt_zpow_fractionLog 10 num den (by decide) hnum hden
  have hround := @abs_scaled_sub 10 num den ((p : Int) - 1 - fractionLog 10 num den) (by decide) hden
  rw [significantDigits]
  generalize fractionLog 10 num den = x at hlow hhigh hround
  generalize scaled 10 num den (p - 1 - x) = d at hround
  push_cast at hround
  have hscale : (0 : ℚ) < (10 : ℚ) ^ ((p : Int) - 1 - x) := by positivity
  have hlower : 10 ^ (p - 1) ≤ d := by
    have h1 : (10 : ℚ) ^ (p - 1) ≤ num / den * (10 : ℚ) ^ ((p : Int) - 1 - x) := by
      calc (10 : ℚ) ^ (p - 1) = (10 : ℚ) ^ x * (10 : ℚ) ^ ((p : Int) - 1 - x) := by
            rw [← zpow_add₀ (by norm_num), ← zpow_natCast]
            congr 1
            omega
        _ ≤ _ := by gcongr
    have h2 : ((10 ^ (p - 1) : Nat) : ℚ) < d + 1 := by
      push_cast
      linarith [(abs_le.mp hround).1]
    have h3 : 10 ^ (p - 1) < d + 1 := by exact_mod_cast h2
    omega
  have hupper : d ≤ 10 ^ p := by
    have h1 : (num : ℚ) / den * (10 : ℚ) ^ ((p : Int) - 1 - x) < (10 : ℚ) ^ p := by
      calc (num : ℚ) / den * (10 : ℚ) ^ ((p : Int) - 1 - x)
          < (10 : ℚ) ^ (x + 1) * (10 : ℚ) ^ ((p : Int) - 1 - x) := by gcongr
        _ = (10 : ℚ) ^ p := by
            rw [← zpow_add₀ (by norm_num), ← zpow_natCast]
            congr 1
            omega
    have h2 : (d : ℚ) < (10 ^ p : Nat) + 1 := by
      push_cast
      linarith [(abs_le.mp hround).2]
    have h3 : d < 10 ^ p + 1 := by exact_mod_cast h2
    omega
  have hnear := near_of_scaled hlow hround
  split
  next hcarry =>
    refine ⟨le_rfl, Nat.pow_lt_pow_right (by decide) (by omega), ?_⟩
    have hsame : ((10 ^ (p - 1) : Nat) : ℚ) * (10 : ℚ) ^ (x + 1 - (p - 1)) =
        d * (10 : ℚ) ^ (x - (p - 1)) := by
      rw [hcarry]
      push_cast
      rw [← zpow_natCast, ← zpow_natCast, ← zpow_add₀ (by norm_num), ← zpow_add₀ (by norm_num)]
      congr 1
      omega
    rw [hsame]
    exact hnear
  next hcarry => exact ⟨hlower, lt_of_le_of_ne hupper hcarry, hnear⟩

end Digits

section Nearest
variable {p m num den : Nat} {e minExponent : Int}

theorem zpow_two_lt {a b : Int} (h : (2 : ℚ) ^ a < (2 : ℚ) ^ b) : a < b :=
  (zpow_lt_zpow_iff_right₀ (by norm_num)).mp h

/-- A fraction that is closer to a binary number than a half of its last bit, on either side
of a power of two, is rounded to it. -/
theorem nearestCode_eq (hp : 0 < p) (hnum : 0 < num) (hden : 0 < den) (he : minExponent ≤ e)
    (hbits : m < 2 ^ p) (hnormal : e = minExponent ∨ 2 ^ (p - 1) ≤ m)
    (hnear : |(num : ℚ) / den - m * (2 : ℚ) ^ e| < m * (2 : ℚ) ^ e / 2 ^ (p + 1)) :
    nearestCode p minExponent num den = (e - minExponent).toNat * 2 ^ (p - 1) + m := by
  have hlow : (2 : ℚ) ^ fractionLog 2 num den ≤ num / den := by
    exact_mod_cast zpow_fractionLog_le (by decide) hnum hden
  have hhigh : (num : ℚ) / den < (2 : ℚ) ^ (fractionLog 2 num den + 1) := by
    exact_mod_cast @lt_zpow_fractionLog 2 num den (by decide) hnum hden
  obtain ⟨u, hu⟩ : ∃ u : ℚ, (num : ℚ) / den = u * (2 : ℚ) ^ e :=
    ⟨num / den * (2 : ℚ) ^ (-e), by rw [mul_assoc, ← zpow_add₀ (by norm_num)]; simp⟩
  have hscale : (0 : ℚ) < (2 : ℚ) ^ e := by positivity
  have hclose : |u - m| < m / 2 ^ (p + 1) := by
    rw [hu, ← sub_mul, abs_mul, abs_of_pos hscale, mul_div_right_comm] at hnear
    exact lt_of_mul_lt_mul_right hnear hscale.le
  have hhalf : (m : ℚ) / 2 ^ (p + 1) < 1 / 2 := by
    rw [div_lt_div_iff₀ (by positivity) two_pos, pow_succ]
    have : (m : ℚ) < 2 ^ p := by exact_mod_cast hbits
    linarith
  obtain ⟨hbelow, habove⟩ := abs_lt.mp hclose
  have hlog : fractionLog 2 num den < e + p := by
    refine zpow_two_lt (hlow.trans_lt ?_)
    have hup : u < 2 ^ p := by
      have : (m : ℚ) + 1 ≤ 2 ^ p := by exact_mod_cast hbits
      linarith
    calc (num : ℚ) / den = u * (2 : ℚ) ^ e := hu
      _ < 2 ^ p * (2 : ℚ) ^ e := by gcongr
      _ = (2 : ℚ) ^ (e + p) := by rw [zpow_add₀ (by norm_num), zpow_natCast, mul_comm]
  have hscaled : ∀ k : Int, (num : ℚ) / den * ((2 : Nat) : ℚ) ^ k = u * (2 : ℚ) ^ (e + k) := by
    intro k
    rw [hu, Nat.cast_two, mul_assoc, ← zpow_add₀ (by norm_num)]
  rw [nearestCode]
  rcases eq_or_ne (max minExponent (fractionLog 2 num den - (p - 1))) e with hexp | hexp
  · rw [hexp, scaled_eq two_pos hden (m := m)]
    rw [hscaled, add_neg_cancel, zpow_zero, mul_one, abs_sub_comm]
    exact hclose.trans hhalf
  · -- only a fraction below a power of two has a smaller exponent
    have hsmaller : fractionLog 2 num den < e + p - 1 ∧ minExponent < e := by omega
    have hu' : u < 2 ^ (p - 1) := by
      have hlt : u * (2 : ℚ) ^ e < (2 : ℚ) ^ (e + p - 1) :=
        hu ▸ hhigh.trans_le (zpow_le_zpow_right₀ (by norm_num) (by omega))
      rw [show e + p - 1 = e + ((p - 1 : Nat) : Int) by omega, zpow_add₀ (by norm_num),
        zpow_natCast, mul_comm] at hlt
      exact lt_of_mul_lt_mul_left hlt hscale.le
    have hpower : m = 2 ^ (p - 1) := by
      have hlt : (m : ℚ) < (2 ^ (p - 1) : Nat) + 1 := by
        push_cast
        linarith
      have hlt' : m < 2 ^ (p - 1) + 1 := by exact_mod_cast hlt
      have hle := hnormal.resolve_left hsmaller.2.ne'
      omega
    have hquarter : (m : ℚ) / 2 ^ (p + 1) = 1 / 4 := by
      rw [hpower, div_eq_div_iff (by positivity) (by norm_num), pow_succ]
      obtain ⟨n, rfl⟩ := Nat.exists_eq_succ_of_ne_zero hp.ne'
      push_cast [Nat.succ_eq_add_one, Nat.add_sub_cancel]
      ring
    have hm : (m : ℚ) = 2 ^ (p - 1) := by exact_mod_cast congrArg (Nat.cast (R := ℚ)) hpower
    have hexp' : fractionLog 2 num den = e + p - 2 := by
      have hlt : (2 : ℚ) ^ (e + (p : Int) - 2) < (2 : ℚ) ^ (fractionLog 2 num den + 1) := by
        refine lt_of_le_of_lt ?_ hhigh
        rw [hu, show e + (p : Int) - 2 = ((p - 1 : Nat) : Int) - 1 + e by omega,
          zpow_add₀ (by norm_num), zpow_sub₀ (by norm_num), zpow_natCast]
        have hone : (1 : ℚ) ≤ 2 ^ (p - 1) := one_le_pow₀ (by norm_num)
        have hle : (2 : ℚ) ^ (p - 1) / 2 ^ (1 : Int) ≤ u := by
          rw [zpow_one, div_le_iff₀ two_pos]
          linarith
        gcongr
      have := zpow_two_lt hlt
      omega
    have hmax : max minExponent (fractionLog 2 num den - (p - 1)) = e - 1 := by omega
    rw [hmax, scaled_eq two_pos hden (m := 2 ^ p)]
    · have hdouble : 2 ^ p = 2 ^ (p - 1) + m := by
        rw [hpower, ← two_mul, ← pow_succ', Nat.sub_add_cancel hp]
      have hstep : (e - minExponent).toNat = (e - 1 - minExponent).toNat + 1 := by omega
      rw [hstep, hdouble]
      ring
    · rw [hscaled, show e + -(e - 1) = 1 by ring, zpow_one]
      have hdouble : ((2 ^ p : Nat) : ℚ) = 2 * m := by
        rw [hm, ← pow_succ', Nat.sub_add_cancel hp]
        push_cast
        rfl
      rw [hdouble, abs_lt]
      constructor <;> linarith

/-- With enough digits for the bits, what is read back is what was written. -/
theorem Significant.close {q : ℚ} {P d : Nat} {x : Int} (hd : Significant P q d x)
    (hdigits : 2 ^ p < 10 ^ (P - 1)) (hP : 0 < P) (hq : 0 < q) :
    |(d : ℚ) * (10 : ℚ) ^ (x - (P - 1)) - q| < q / 2 ^ (p + 1) := by
  refine hd.near.trans_lt ?_
  have hpow : (2 : ℚ) ^ p < 10 ^ (P - 1) := by exact_mod_cast hdigits
  have hinv : ((10 : ℚ) ^ (P - 1))⁻¹ < (2 ^ p)⁻¹ := inv_strictAnti₀ (by positivity) hpow
  calc q * (1 / 2 * (10 : ℚ) ^ (1 - (P : Int)))
      = q / 2 * ((10 : ℚ) ^ (P - 1))⁻¹ := by
        rw [show (1 - (P : Int)) = -((P - 1 : Nat) : Int) by omega, zpow_neg, zpow_natCast]
        ring
    _ < q / 2 * (2 ^ p)⁻¹ := by gcongr
    _ = q / 2 ^ (p + 1) := by
        rw [pow_succ]
        field_simp

/-- The binary numbers of `p` bits are given back by `P` decimal digits. -/
theorem nearestCode_decimal {P d : Nat} {x : Int} (hp : 0 < p) (hP : 0 < P)
    (hdigits : 2 ^ p < 10 ^ (P - 1)) (he : minExponent ≤ e) (hm : 0 < m) (hbits : m < 2 ^ p)
    (hnormal : e = minExponent ∨ 2 ^ (p - 1) ≤ m)
    (hd : Significant P (m * (2 : ℚ) ^ e) d x) (hnum : 0 < num) (hden : 0 < den)
    (hvalue : (num : ℚ) / den = d * (10 : ℚ) ^ (x - (P - 1))) :
    nearestCode p minExponent num den = (e - minExponent).toNat * 2 ^ (p - 1) + m := by
  refine nearestCode_eq hp hnum hden he hbits hnormal ?_
  rw [hvalue]
  exact hd.close hdigits hP (by positivity)

end Nearest

end VectorDb.Lib
