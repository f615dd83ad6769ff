import VectorDb.Lib.DecimalText
import VectorDb.Util.VectorCsv

/-!
The components of a vector as `write_vector_csv` of src/util/vector_io.cpp prints them, and
what `std::stof` makes of such a text.
-/
set_option autoImplicit false

namespace VectorDb.Util

open VectorDb.Lib VectorDb.Persistence VectorDb.Storage VectorDb.Cli

/-- All bits but the sign. They grow with the absolute value. -/
def magnitude (x : BitVec 32) : Nat := (x.extractLsb' 0 31).toNat

def significand (magnitude : Nat) : Nat :=
  if magnitude < 8388608 then magnitude else 8388608 + magnitude % 8388608

/-- `file << std::setprecision(9) << x`. -/
def componentText (x : BitVec 32) : Text :=
  let m := magnitude x
  let exponent := max (m / 8388608) 1
  (if x.msb then [45] else []) ++
    if Component.isFinite x then
      generalFormatTo 9 (significand m * 2 ^ (exponent - 150)) (2 ^ (150 - exponent))
    else if Component.isNaN x then [110, 97, 110]
    else [105, 110, 102]

/-- The sign and the value of a text that is a decimal. -/
def readSigned (text : Text) : Option (Bool × Nat × Int) :=
  (readNumeral (stripSign text).2).map fun value => ((stripSign text).1, value)

/-- The bits of the float that is nearest to a decimal, without its sign. -/
def decimalCode (n : Nat) (k : Int) : Nat :=
  if n = 0 then 0
  else nearestCode 24 (-149) (decimalFraction n k).1 (decimalFraction n k).2

def signedFloat (negative : Bool) (code : Nat) : BitVec 32 :=
  BitVec.ofNat 32 ((if negative then 2147483648 else 0) + code)

/-- What the C library documents of `strtof` on decimals: the nearest float, and `ERANGE` where
that is below the normal floats. Of decimals that only rounding makes normal it leaves open
whether they are out of range. -/
structure StrtofLaws (strtof : Text → FloatConversion) : Prop where
  nearest : ∀ text negative n k, readSigned text = some (negative, n, k) →
    decimalCode n k < 2139095040 → n = 0 ∨ (2 : ℚ) ^ (-126 : Int) ≤ n * (10 : ℚ) ^ k →
      strtof text = ⟨signedFloat negative (decimalCode n k), text.length, false⟩
  underflow : ∀ text negative n k, readSigned text = some (negative, n, k) → n ≠ 0 →
    (n : ℚ) * (10 : ℚ) ^ k ≤ (2 : ℚ) ^ (-126 : Int) - (2 : ℚ) ^ (-150 : Int) →
    (∀ j : Nat, (n : ℚ) * (10 : ℚ) ^ k ≠ j * (2 : ℚ) ^ (-149 : Int)) →
      (strtof text).outOfRange = true

/-- `strtof` on decimals. -/
def decimalStrtof (text : Text) : FloatConversion :=
  match readSigned text with
  | none => ⟨0#32, 0, false⟩
  | some (negative, n, k) =>
    let fraction := decimalFraction n k
    let tiny := fraction.1 * 2 ^ 126 < fraction.2 ∧ fraction.1 * 2 ^ 149 % fraction.2 ≠ 0
    ⟨signedFloat negative (min (decimalCode n k) 2139095040), text.length,
      2139095040 ≤ decimalCode n k ∨ tiny⟩

section Decimals
variable {n : Nat} {k : Int}

theorem tiny_iff : (decimalFraction n k).1 * 2 ^ 126 < (decimalFraction n k).2 ↔
    (n : ℚ) * (10 : ℚ) ^ k < (2 : ℚ) ^ (-126 : Int) := by
  have hden : (0 : ℚ) < (decimalFraction n k).2 := by exact_mod_cast decimalFraction_pos n k
  rw [← decimalFraction_value, div_lt_iff₀ hden, show (-126 : Int) = -((126 : Nat) : Int) by rfl,
    zpow_neg, zpow_natCast, ← div_eq_inv_mul, lt_div_iff₀ (by positivity)]
  exact_mod_cast Iff.rfl

theorem multiple_of_dvd (h : (decimalFraction n k).1 * 2 ^ 149 % (decimalFraction n k).2 = 0) :
    ∃ j : Nat, (n : ℚ) * (10 : ℚ) ^ k = j * (2 : ℚ) ^ (-149 : Int) := by
  have hden : (0 : ℚ) < (decimalFraction n k).2 := by exact_mod_cast decimalFraction_pos n k
  obtain ⟨j, hj⟩ := Nat.dvd_of_mod_eq_zero h
  have hj' : ((decimalFraction n k).1 : ℚ) * 2 ^ 149 = (decimalFraction n k).2 * j := by
    exact_mod_cast hj
  refine ⟨j, ?_⟩
  rw [← decimalFraction_value, show (-149 : Int) = -((149 : Nat) : Int) by rfl, zpow_neg,
    zpow_natCast, ← div_eq_mul_inv, div_eq_div_iff hden.ne' (by positivity), hj', mul_comm]

theorem decimalStrtof_laws : StrtofLaws decimalStrtof where
  nearest text negative n k hread hcode hlarge := by
    have htiny : ¬ ((decimalFraction n k).1 * 2 ^ 126 < (decimalFraction n k).2 ∧
        (decimalFraction n k).1 * 2 ^ 149 % (decimalFraction n k).2 ≠ 0) := by
      rintro ⟨hsmall, hinexact⟩
      rcases hlarge with rfl | hlarge
      · refine hinexact ?_
        unfold decimalFraction
        split <;> simp
      · exact absurd (tiny_iff.mp hsmall) (not_lt.mpr hlarge)
    rw [decimalStrtof, hread]
    simp only [htiny, or_false, not_le.mpr hcode, min_eq_left hcode.le, decide_false]
  underflow text negative n k hread hn hbelow hinexact := by
    have hsmall : (decimalFraction n k).1 * 2 ^ 126 < (decimalFraction n k).2 :=
      tiny_iff.mpr (hbelow.trans_lt (sub_lt_self _ (by positivity)))
    have hrest : (decimalFraction n k).1 * 2 ^ 149 % (decimalFraction n k).2 ≠ 0 := by
      intro hzero
      obtain ⟨j, hj⟩ := multiple_of_dvd hzero
      exact hinexact j hj
    rw [decimalStrtof, hread]
    exact decide_eq_true (.inr ⟨hsmall, hrest⟩)

end Decimals

section Bits
variable (x : BitVec 32)

theorem toNat_eq : x.toNat = (if x.msb then 2147483648 else 0) + magnitude x := by
  rw [magnitude, BitVec.extractLsb'_toNat, BitVec.msb_eq_decide]
  have hlt := x.isLt
  simp only [Nat.shiftRight_zero, decide_eq_true_eq]
  split <;> omega

theorem magnitude_lt : magnitude x < 2147483648 := (x.extractLsb' 0 31).isLt

theorem signedFloat_magnitude : signedFloat x.msb (magnitude x) = x := by
  rw [signedFloat, ← toNat_eq, BitVec.ofNat_toNat, BitVec.setWidth_eq]

theorem isFinite_iff : Component.isFinite x = true ↔ magnitude x < 2139095040 := by
  have hbits : (x.extractLsb' 23 8).toNat = x.toNat / 8388608 % 256 := by
    rw [BitVec.extractLsb'_toNat, Nat.shiftRight_eq_div_pow]
  have hx := toNat_eq x
  have hlt := magnitude_lt x
  rw [Component.isFinite, bne_iff_ne, ne_eq, ← BitVec.toNat_inj, hbits, hx,
    BitVec.toNat_ofNat]
  generalize magnitude x = m at hlt
  split <;> omega

end Bits

section Value
variable {m : Nat}

theorem significand_pos (hm : 0 < m) : 0 < significand m := by
  unfold significand
  split <;> omega

theorem significand_lt (m : Nat) : significand m < 2 ^ 24 := by
  unfold significand
  split <;> omega

/-- A float's bits are its significand above the smallest one, and the steps of its exponent. -/
theorem code_significand (m : Nat) :
    (((max (m / 8388608) 1 : Nat) : Int) - 150 - -149).toNat * 2 ^ (24 - 1) + significand m = m := by
  unfold significand
  split <;> omega

theorem significand_value (m : Nat) :
    ((significand m * 2 ^ (max (m / 8388608) 1 - 150) : Nat) : ℚ) /
        ((2 ^ (150 - max (m / 8388608) 1) : Nat) : ℚ) =
      significand m * (2 : ℚ) ^ (((max (m / 8388608) 1 : Nat) : Int) - 150) := by
  generalize max (m / 8388608) 1 = e
  have hexponent : ((e - 150 : Nat) : Int) - ((150 - e : Nat) : Int) = e - 150 := by omega
  push_cast
  rw [mul_div_assoc, ← zpow_natCast, ← zpow_natCast, ← zpow_sub₀ (by norm_num), hexponent]

/-- The value of a float above zero. -/
def floatValue (m : Nat) : ℚ := significand m * (2 : ℚ) ^ (((max (m / 8388608) 1 : Nat) : Int) - 150)

theorem floatValue_pos (hm : 0 < m) : 0 < floatValue m := by
  have h : (0 : ℚ) < significand m := by exact_mod_cast significand_pos hm
  unfold floatValue
  positivity

/-- The floats below 2^-126 are the multiples of 2^-149 there. -/
theorem floatValue_subnormal (hm : m < 8388608) : floatValue m = m * (2 : ℚ) ^ (-149 : Int) := by
  rw [floatValue, significand, if_pos hm, show max (m / 8388608) 1 = 1 by omega]
  norm_num

/-- Behind the smallest normal float comes one with one more bit. -/
theorem lt_floatValue (hm : 8388608 < m) :
    (8388609 : ℚ) * (2 : ℚ) ^ (-149 : Int) ≤ floatValue m := by
  have hsig : 8388609 ≤ significand m * 2 ^ (max (m / 8388608) 1 - 1) := by
    rw [significand, if_neg (by omega)]
    by_cases hsmall : m / 8388608 = 1
    · rw [hsmall]
      simp
      omega
    · have hpow : 2 ^ 1 ≤ 2 ^ (max (m / 8388608) 1 - 1) :=
        Nat.pow_le_pow_right (by decide) (by omega)
      calc 8388609 ≤ 8388608 * 2 ^ 1 := by decide
        _ ≤ (8388608 + m % 8388608) * 2 ^ (max (m / 8388608) 1 - 1) :=
          Nat.mul_le_mul (by omega) hpow
  have hsig' : (8388609 : ℚ) ≤ significand m * 2 ^ (max (m / 8388608) 1 - 1) := by
    exact_mod_cast hsig
  have hexponent : (((max (m / 8388608) 1 : Nat) : Int) - 150) =
      ((max (m / 8388608) 1 - 1 : Nat) : Int) + -149 := by omega
  rw [floatValue, hexponent, zpow_add₀ (by norm_num), zpow_natCast, ← mul_assoc]
  gcongr

end Value

section Text
variable {text : Text} {x : BitVec 32} {n : Nat} {k : Int}

theorem stripSign_readNumeral {value : Nat × Int} (h : readNumeral text = some value) :
    stripSign text = (false, text) := by
  cases text with
  | nil => rfl
  | cons c text =>
    rw [stripSign]
    by_cases hsign : c = 45 ∨ c = 43
    · have hnone : readNumeral (c :: text) = none := by
        rcases hsign with rfl | rfl <;> rfl
      rw [hnone] at h
      cases h
    · rw [if_neg fun hc => hsign (.inl hc), if_neg fun hc => hsign (.inr hc)]

theorem readSigned_sign {digits : Text} (negative : Bool) (h : readNumeral digits = some (n, k)) :
    readSigned ((if negative then [45] else []) ++ digits) = some (negative, n, k) := by
  cases negative with
  | true =>
    show (readNumeral digits).map (fun value => (true, value)) = _
    rw [h]
    rfl
  | false =>
    show (readNumeral (stripSign digits).2).map (fun value => ((stripSign digits).1, value)) = _
    rw [stripSign_readNumeral h, h]
    rfl

/-- What is printed of zero. -/
theorem readSigned_zero (hzero : magnitude x = 0) :
    readSigned (componentText x) = some (x.msb, 0, 0) := by
  rw [componentText, (isFinite_iff x).mpr (by omega), hzero]
  exact readSigned_sign x.msb rfl

/-- What is printed of another finite float stands for nine of its digits. -/
theorem readSigned_componentText (hfinite : Component.isFinite x = true) (hpos : 0 < magnitude x) :
    ∃ n k d e, readSigned (componentText x) = some (x.msb, n, k) ∧
      Significant 9 (floatValue (magnitude x)) d e ∧
      (n : ℚ) * (10 : ℚ) ^ k = d * (10 : ℚ) ^ (e - 8) := by
  have hsig := significand_pos hpos
  have hnum : 0 < significand (magnitude x) * 2 ^ (max (magnitude x / 8388608) 1 - 150) :=
    Nat.mul_pos hsig (pow_pos two_pos _)
  have hspec := significantDigits_spec (p := 9) (by decide) hnum
    (pow_pos two_pos (150 - max (magnitude x / 8388608) 1))
  rw [significand_value] at hspec
  obtain ⟨n, k, hread, hvalue⟩ := readNumeral_layOut (x := (significantDigits 9
    (significand (magnitude x) * 2 ^ (max (magnitude x / 8388608) 1 - 150))
    (2 ^ (150 - max (magnitude x / 8388608) 1))).2) hspec.lower hspec.upper
  refine ⟨n, k, _, _, ?_, hspec, hvalue.trans ?_⟩
  · rw [componentText, hfinite, if_pos rfl, generalFormatTo, if_neg hnum.ne']
    exact readSigned_sign x.msb hread
  · norm_num

/-- What nine digits keep of a float. -/
theorem printed_near {m d : Nat} {e : Int} (hpos : 0 < m) (hspec : Significant 9 (floatValue m) d e)
    (hvalue : (n : ℚ) * (10 : ℚ) ^ k = d * (10 : ℚ) ^ (e - 8)) :
    0 < n ∧ |(n : ℚ) * (10 : ℚ) ^ k - floatValue m| < floatValue m / 2 ^ 25 := by
  have hclose := hspec.close (p := 24) (by norm_num) (by decide) (floatValue_pos hpos)
  rw [show e - (((9 : Nat) : Int) - 1) = e - 8 by norm_num, ← hvalue] at hclose
  refine ⟨?_, hclose⟩
  have hd : 0 < d := lt_of_lt_of_le (by decide) hspec.lower
  have hprod : (0 : ℚ) < n * (10 : ℚ) ^ k := by
    rw [hvalue]
    positivity
  have hn : (0 : ℚ) < n := pos_of_mul_pos_left hprod (by positivity)
  exact_mod_cast hn

/-- The nearest float to nine digits of a float is that float. -/
theorem decimalCode_printed {m d : Nat} {e : Int} (hpos : 0 < m)
    (hspec : Significant 9 (floatValue m) d e)
    (hvalue : (n : ℚ) * (10 : ℚ) ^ k = d * (10 : ℚ) ^ (e - 8)) : decimalCode n k = m := by
  obtain ⟨hn, -⟩ := printed_near hpos hspec hvalue
  have hfraction := decimalFraction_value n k
  have hnum : 0 < (decimalFraction n k).1 := by
    unfold decimalFraction
    split
    · exact Nat.mul_pos hn (pow_pos (by decide) _)
    · exact hn
  rw [decimalCode, if_neg hn.ne', nearestCode_decimal (by decide) (by decide) (by norm_num)
    (e := ((max (m / 8388608) 1 : Nat) : Int) - 150) (by omega) (significand_pos hpos)
    (significand_lt m) ?_ hspec hnum (decimalFraction_pos n k) ?_]
  · exact code_significand m
  · rw [significand]
    split
    · left
      omega
    · right
      omega
  · rw [hfraction, hvalue]
    norm_num

theorem printed_below {m : Nat} {v : ℚ} (hsmall : m < 8388608)
    (hnear : |v - floatValue m| < floatValue m / 2 ^ 25) :
    v ≤ (2 : ℚ) ^ (-126 : Int) - (2 : ℚ) ^ (-150 : Int) := by
  have hunit : (0 : ℚ) < (2 : ℚ) ^ (-149 : Int) := by positivity
  have hm : (m : ℚ) ≤ 8388607 := by exact_mod_cast Nat.lt_succ_iff.mp hsmall
  have hfloat : floatValue m ≤ 8388607 * (2 : ℚ) ^ (-149 : Int) := by
    rw [floatValue_subnormal hsmall]
    gcongr
  rw [abs_lt] at hnear
  rw [show (-126 : Int) = 23 + -149 by norm_num, show (-150 : Int) = -1 + -149 by norm_num,
    zpow_add₀ (by norm_num), zpow_add₀ (by norm_num)]
  generalize (2 : ℚ) ^ (-149 : Int) = unit at hunit hfloat
  norm_num at hnear ⊢
  linarith

/-- Nine digits so far behind the point are no binary fraction. -/
theorem not_binary {d : Nat} {e : Int} (hlower : 10 ^ 8 ≤ d) (hupper : d < 10 ^ 9)
    (hbelow : (d : ℚ) * (10 : ℚ) ^ (e - 8) ≤ (2 : ℚ) ^ (-126 : Int) - (2 : ℚ) ^ (-150 : Int))
    (j : Nat) : (d : ℚ) * (10 : ℚ) ^ (e - 8) ≠ j * (2 : ℚ) ^ (-149 : Int) := by
  intro hj
  have he : e < -37 := by
    refine (zpow_lt_zpow_iff_right₀ (by norm_num : (1 : ℚ) < 10)).mp ?_
    calc (10 : ℚ) ^ e = (10 ^ 8 : Nat) * (10 : ℚ) ^ (e - 8) := by
          rw [Nat.cast_pow, ← zpow_natCast, Nat.cast_ofNat, ← zpow_add₀ (by norm_num)]
          congr 1
          omega
      _ ≤ d * (10 : ℚ) ^ (e - 8) := by gcongr
      _ ≤ (2 : ℚ) ^ (-126 : Int) - (2 : ℚ) ^ (-150 : Int) := hbelow
      _ < (10 : ℚ) ^ (-37 : Int) := by norm_num
  obtain ⟨t, ht⟩ : ∃ t : Nat, e - 8 = -((46 + t : Nat) : Int) :=
    ⟨(-(e - 8) - 46).toNat, by omega⟩
  have hcross : d * 2 ^ 149 = j * 10 ^ (46 + t) := by
    rw [ht, zpow_neg, zpow_natCast, show (-149 : Int) = -((149 : Nat) : Int) by norm_num, zpow_neg,
      zpow_natCast, ← div_eq_mul_inv, ← div_eq_mul_inv,
      div_eq_div_iff (by positivity) (by positivity)] at hj
    exact_mod_cast hj
  have hdvd : 5 ^ 46 ∣ d * 2 ^ 149 := by
    rw [hcross, show 10 = 5 * 2 by rfl, mul_pow, pow_add, mul_assoc]
    exact Dvd.dvd.mul_left (Dvd.intro _ rfl) j
  have hfive : 5 ^ 46 ∣ d :=
    Nat.Coprime.dvd_of_dvd_mul_right (Nat.Coprime.pow 46 149 (by decide)) hdvd
  have hle := Nat.le_of_dvd (lt_of_lt_of_le (by decide) hlower) hfive
  exact absurd (hle.trans_lt hupper) (by decide)

theorem isNumeral_componentText (hfinite : Component.isFinite x = true) {c : Byte}
    (hc : c ∈ componentText x) : isNumeral c = true := by
  rw [componentText, hfinite, if_pos rfl, List.mem_append] at hc
  rcases hc with hc | hc
  · split at hc
    · rw [List.mem_singleton.mp hc]
      rfl
    · cases hc
  · exact isNumeral_generalFormatTo hc

theorem cString_componentText (hfinite : Component.isFinite x = true) :
    cString (componentText x) = componentText x := by
  refine cString_eq fun hmem => ?_
  have := isNumeral_componentText hfinite hmem
  revert this
  decide

theorem componentText_ne_nil (hfinite : Component.isFinite x = true) : componentText x ≠ [] := by
  intro hnil
  rcases Nat.eq_zero_or_pos (magnitude x) with hzero | hpos
  · have hread := readSigned_zero hzero
    rw [hnil] at hread
    cases hread
  · obtain ⟨n, k, d, e, hread, -⟩ := readSigned_componentText hfinite hpos
    rw [hnil] at hread
    cases hread

end Text

section Stof
variable {strtof : Text → FloatConversion} (hlaws : StrtofLaws strtof) {x : BitVec 32}
  (hfinite : Component.isFinite x = true)
include hlaws hfinite

theorem stof_componentText (hclear : magnitude x = 0 ∨ 8388608 < magnitude x) :
    stof strtof (componentText x) = some (x, (componentText x).length) := by
  have hlength : (componentText x).length ≠ 0 :=
    fun h => componentText_ne_nil hfinite (List.length_eq_zero_iff.mp h)
  have hstrtof : strtof (componentText x) = ⟨x, (componentText x).length, false⟩ := by
    rcases hclear with hzero | hnormal
    · have hread := readSigned_zero hzero
      rw [hlaws.nearest _ _ _ _ hread (by decide) (.inl rfl)]
      have hx := signedFloat_magnitude x
      rw [hzero] at hx
      rw [decimalCode, if_pos rfl, hx]
    · have hpos : 0 < magnitude x := by omega
      obtain ⟨n, k, d, e, hread, hspec, hvalue⟩ := readSigned_componentText hfinite hpos
      have hcode := decimalCode_printed hpos hspec hvalue
      obtain ⟨-, hnear⟩ := printed_near hpos hspec hvalue
      have hlarge : (2 : ℚ) ^ (-126 : Int) ≤ n * (10 : ℚ) ^ k := by
        have hfloat := lt_floatValue hnormal
        rw [abs_lt] at hnear
        rw [show (-126 : Int) = 23 + -149 by norm_num, zpow_add₀ (by norm_num)]
        have hunit : (0 : ℚ) < (2 : ℚ) ^ (-149 : Int) := by positivity
        norm_num at hfloat hnear ⊢
        linarith
      rw [hlaws.nearest _ _ _ _ hread (hcode ▸ (isFinite_iff x).mp hfinite) (.inr hlarge), hcode,
        signedFloat_magnitude]
  rw [stof, cString_componentText hfinite, hstrtof]
  simp [hlength]

theorem stof_subnormal (hpos : 0 < magnitude x) (hsmall : magnitude x < 8388608) :
    stof strtof (componentText x) = none := by
  obtain ⟨n, k, d, e, hread, hspec, hvalue⟩ := readSigned_componentText hfinite hpos
  obtain ⟨hn, hnear⟩ := printed_near hpos hspec hvalue
  have hrange : (strtof (componentText x)).outOfRange = true := by
    refine hlaws.underflow _ _ _ _ hread hn.ne' ?_ fun j hj => ?_
    · exact printed_below hsmall hnear
    · rw [hvalue] at hnear hj
      exact not_binary hspec.lower hspec.upper (hvalue ▸ printed_below hsmall (hvalue ▸ hnear)) j hj
  rw [stof, cString_componentText hfinite]
  simp [hrange]

end Stof

end VectorDb.Util
