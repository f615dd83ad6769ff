import VectorDb.Lib.GeneralFormat
import VectorDb.Lib.SignificantDigits

/-!
Fractions in the general format with any number of significant digits, and the decimals
that such a text spells.
-/
set_option autoImplicit false

namespace VectorDb.Lib

/-- Digits, the first of them at 10 to the `x`. -/
def layOut (p d : Nat) (x : Int) : List (Fin 256) :=
  let digits := decimalDigits d
  if x < -4 ∨ p ≤ x then withPoint (digits.take 1) (digits.drop 1) ++ 101 :: exponentText x
  else if x < 0 then withPoint [48] (List.replicate (-1 - x).toNat 48 ++ digits)
  else withPoint (digits.take (x.toNat + 1)) (digits.drop (x.toNat + 1))

/-- `%.*g` of a fraction that is not negative. -/
def generalFormatTo (p num den : Nat) : List (Fin 256) :=
  if num = 0 then [48]
  else layOut p (significantDigits p num den).1 (significantDigits p num den).2

/-- What stands behind the digits of a decimal. -/
def readExponent : List (Fin 256) → Option Int
  | [] => some 0
  | [_] => none
  | e :: sign :: digits =>
    if e ≠ 101 ∧ e ≠ 69 then none
    else if sign = 45 then
      if digits ≠ [] ∧ digits.all isDigit then some (-readDigits digits) else none
    else if sign = 43 then
      if digits ≠ [] ∧ digits.all isDigit then some (readDigits digits) else none
    else if (sign :: digits).all isDigit then some (readDigits (sign :: digits)) else none

/-- The digits behind a point, if there is one, and what follows. -/
def readFraction : List (Fin 256) → List (Fin 256) × List (Fin 256)
  | [] => ([], [])
  | c :: rest => if c = 46 then (rest.takeWhile isDigit, rest.dropWhile isDigit) else ([], c :: rest)

/-- `n` and `k` where the text is a decimal, from its first character to its last, that
stands for `n * 10 ^ k`. -/
def readNumeral (text : List (Fin 256)) : Option (Nat × Int) :=
  let whole := text.takeWhile isDigit
  let fraction := readFraction (text.dropWhile isDigit)
  if whole ++ fraction.1 = [] then none
  else (readExponent fraction.2).map fun e =>
    (readDigits (whole ++ fraction.1), e - fraction.1.length)

section Reading
variable {p d : Nat} {x : Int} {whole fraction tail : List (Fin 256)}

theorem readDigits_append (a b : List (Fin 256)) :
    readDigits (a ++ b) = readDigits a * 10 ^ b.length + readDigits b := by
  induction b using List.reverseRecOn with
  | nil => simp [readDigits]
  | append_singleton b c ih =>
    have hlast : ∀ l : List (Fin 256), readDigits (l ++ [c]) = 10 * readDigits l + (c.val - 48) :=
      fun l => by rw [readDigits, List.foldl_append]; rfl
    rw [← List.append_assoc, hlast, hlast, ih, List.length_append, List.length_singleton, pow_succ]
    ring

theorem readDigits_zeros (n : Nat) : readDigits (List.replicate n 48) = 0 := by
  induction n with
  | zero => rfl
  | succ n ih => rw [List.replicate_succ', readDigits_append, ih]; rfl

/-- The zeros that are dropped stand at the end. -/
theorem dropZeros_append (digits : List (Fin 256)) :
    ∃ n, digits = dropZeros digits ++ List.replicate n 48 := by
  refine ⟨(digits.reverse.takeWhile (· = 48)).length, ?_⟩
  have hzeros : digits.reverse.takeWhile (· = 48) =
      List.replicate (digits.reverse.takeWhile (· = 48)).length 48 :=
    List.eq_replicate_of_mem fun c hc => by simpa using List.mem_takeWhile_imp hc
  have hsplit := congrArg List.reverse (List.takeWhile_append_dropWhile
    (p := (· = (48 : Fin 256))) (l := digits.reverse))
  rw [List.reverse_append, List.reverse_reverse, hzeros, List.reverse_replicate] at hsplit
  exact hsplit.symm

/-- Dropping zeros leaves the value. -/
theorem value_dropZeros (whole fraction : List (Fin 256)) (e : Int) :
    (readDigits (whole ++ dropZeros fraction) : ℚ) * (10 : ℚ) ^ (e - (dropZeros fraction).length) =
      readDigits (whole ++ fraction) * (10 : ℚ) ^ (e - fraction.length) := by
  obtain ⟨n, hn⟩ := dropZeros_append fraction
  generalize dropZeros fraction = kept at hn
  rw [hn, ← List.append_assoc, readDigits_append (whole ++ kept), readDigits_zeros,
    List.length_append, List.length_replicate]
  push_cast
  rw [add_zero, mul_assoc, ← zpow_natCast, ← zpow_add₀ (by norm_num)]
  congr 2
  ring

theorem takeWhile_digits (hwhole : ∀ c ∈ whole, isDigit c = true)
    (htail : ∀ c ∈ tail.head?, isDigit c = false) :
    (whole ++ tail).takeWhile isDigit = whole ∧ (whole ++ tail).dropWhile isDigit = tail := by
  have hnone : tail.takeWhile isDigit = [] ∧ tail.dropWhile isDigit = tail := by
    cases tail with
    | nil => exact ⟨rfl, rfl⟩
    | cons c tail => simp [htail c rfl]
  rw [List.takeWhile_append_of_pos hwhole, List.dropWhile_append_of_pos hwhole, hnone.1, hnone.2,
    List.append_nil]
  exact ⟨rfl, rfl⟩

/-- The digits of a text in this format, and what follows them. -/
theorem readNumeral_withPoint (hne : whole ≠ []) (hwhole : ∀ c ∈ whole, isDigit c = true)
    (hfraction : ∀ c ∈ fraction, isDigit c = true)
    (htail : ∀ c ∈ tail.head?, isDigit c = false ∧ c ≠ 46) :
    readNumeral (withPoint whole fraction ++ tail) = (readExponent tail).map fun e : Int =>
      (readDigits (whole ++ dropZeros fraction), e - (dropZeros fraction).length) := by
  have htail' : ∀ c ∈ tail.head?, isDigit c = false := fun c hc => (htail c hc).1
  unfold withPoint
  split
  next hzeros =>
    obtain ⟨htake, hdrop⟩ := takeWhile_digits hwhole htail'
    have hread : readFraction tail = ([], tail) := by
      cases tail with
      | nil => rfl
      | cons c tail => rw [readFraction, if_neg (htail c rfl).2]
    rw [readNumeral, htake, hdrop, hread, hzeros, if_neg (by simpa using hne)]
  next hzeros =>
    have hkept : ∀ c ∈ dropZeros fraction, isDigit c = true :=
      fun c hc => hfraction c (mem_dropZeros hc)
    have hpoint : ∀ c ∈ (46 :: dropZeros fraction ++ tail).head?, isDigit c = false := by
      intro c hc
      cases hc
      rfl
    obtain ⟨htake, hdrop⟩ := takeWhile_digits hwhole hpoint
    obtain ⟨htake', hdrop'⟩ := takeWhile_digits hkept htail'
    have hread : readFraction (46 :: dropZeros fraction ++ tail) = (dropZeros fraction, tail) := by
      show readFraction (46 :: (dropZeros fraction ++ tail)) = _
      rw [readFraction, if_pos rfl, htake', hdrop']
    rw [List.append_assoc, readNumeral, htake, hdrop, hread, if_neg (by simp [hne])]

theorem readExponent_exponentText (x : Int) : readExponent (101 :: exponentText x) = some x := by
  set digits := (if x.natAbs < 10 then [48] else []) ++ decimalDigits x.natAbs with hdigits
  have hall : digits.all isDigit = true := by
    rw [List.all_eq_true, hdigits]
    intro c hc
    rw [List.mem_append] at hc
    rcases hc with hc | hc
    · split at hc
      · rw [List.mem_singleton.mp hc]
        rfl
      · cases hc
    · exact isDigit_decimalDigits _ c hc
  have hne : digits ≠ [] := List.append_ne_nil_of_right_ne_nil _ (decimalDigits_ne_nil _)
  have hread : readDigits digits = x.natAbs := by
    rw [hdigits, readDigits_append, readDigits_decimalDigits]
    split <;> simp [readDigits]
  rw [exponentText, ← hdigits, readExponent, if_neg (by decide)]
  split
  next hneg =>
    rw [if_pos rfl, if_pos ⟨hne, hall⟩, hread]
    congr 1
    omega
  next hpos =>
    rw [if_neg (by decide), if_pos rfl, if_pos ⟨hne, hall⟩, hread]
    congr 1
    omega

theorem length_decimalDigits (hlower : 10 ^ (p - 1) ≤ d) (hupper : d < 10 ^ p) :
    (decimalDigits d).length = p := by
  have hd : d ≠ 0 := (lt_of_lt_of_le (pow_pos (by decide) _) hlower).ne'
  have hp : p ≠ 0 := by
    rintro rfl
    omega
  rw [decimalDigits, if_neg hd, List.length_map, List.length_reverse,
    Nat.length_digits 10 d (by decide) hd]
  have hlog : Nat.log 10 d = p - 1 :=
    (Nat.log_eq_iff (.inr ⟨by decide, hd⟩)).mpr ⟨hlower, by rwa [Nat.sub_add_cancel (by omega)]⟩
  omega

/-- What is laid out stands for the digits at their exponent. -/
theorem readNumeral_layOut (hlower : 10 ^ (p - 1) ≤ d) (hupper : d < 10 ^ p) :
    ∃ n k, readNumeral (layOut p d x) = some (n, k) ∧
      (n : ℚ) * (10 : ℚ) ^ k = d * (10 : ℚ) ^ (x - (p - 1)) := by
  have hlen := length_decimalDigits hlower hupper
  have hall := isDigit_decimalDigits d
  have hne := decimalDigits_ne_nil d
  have hread := readDigits_decimalDigits d
  rw [layOut]
  generalize decimalDigits d = digits at hlen hall hne hread
  have hp : 0 < p := hlen ▸ List.length_pos_iff.mpr hne
  have htake : ∀ n, digits.take (n + 1) ≠ [] := by simpa using hne
  split
  next hsci =>
    refine ⟨_, _, ?_, value_dropZeros (digits.take 1) (digits.drop 1) x |>.trans ?_⟩
    · rw [readNumeral_withPoint (htake 0) (fun c hc => hall c (List.mem_of_mem_take hc))
        (fun c hc => hall c (List.mem_of_mem_drop hc)) (fun c hc => by cases hc; decide),
        readExponent_exponentText]
      rfl
    · rw [List.take_append_drop, hread, List.length_drop, hlen]
      congr 2
      omega
  next hfixed =>
    split
    next hsmall =>
      have hfraction : ∀ c ∈ List.replicate (-1 - x).toNat 48 ++ digits, isDigit c = true := by
        intro c hc
        rw [List.mem_append] at hc
        rcases hc with hc | hc
        · rw [List.eq_of_mem_replicate hc]
          rfl
        · exact hall c hc
      refine ⟨_, _, ?_, value_dropZeros [48] (List.replicate (-1 - x).toNat 48 ++ digits) 0
        |>.trans ?_⟩
      · rw [← List.append_nil (withPoint _ _), readNumeral_withPoint (by simp)
          (fun c hc => by rw [List.mem_singleton.mp hc]; rfl) hfraction (fun c hc => by cases hc)]
        rfl
      · have hzeros : readDigits ([48] ++ (List.replicate (-1 - x).toNat 48 ++ digits)) = d := by
          rw [← List.append_assoc, readDigits_append, ← List.replicate_one, ← List.replicate_add,
            readDigits_zeros, hread]
          omega
        rw [hzeros, List.length_append, List.length_replicate, hlen]
        congr 2
        omega
    next hlarge =>
      refine ⟨_, _, ?_, value_dropZeros (digits.take (x.toNat + 1)) (digits.drop (x.toNat + 1)) 0
        |>.trans ?_⟩
      · rw [← List.append_nil (withPoint _ _), readNumeral_withPoint (htake x.toNat)
          (fun c hc => hall c (List.mem_of_mem_take hc))
          (fun c hc => hall c (List.mem_of_mem_drop hc)) (fun c hc => by cases hc)]
        rfl
      · rw [List.take_append_drop, hread, List.length_drop, hlen]
        congr 2
        omega

theorem isNumeral_layOut {c : Fin 256} (h : c ∈ layOut p d x) : isNumeral c = true := by
  have hdigits : ∀ c ∈ decimalDigits d, isNumeral c = true := fun c hc => isNumeral_decimalDigits hc
  have htake : ∀ n, ∀ c ∈ (decimalDigits d).take n, isNumeral c = true :=
    fun n c hc => hdigits c (List.mem_of_mem_take hc)
  have hdrop : ∀ n, ∀ c ∈ (decimalDigits d).drop n, isNumeral c = true :=
    fun n c hc => hdigits c (List.mem_of_mem_drop hc)
  have hzero : ∀ n, ∀ c ∈ List.replicate n (48 : Fin 256), isNumeral c = true := by
    intro n c hc
    rw [List.eq_of_mem_replicate hc]
    rfl
  unfold layOut at h
  split at h
  · rw [List.mem_append, List.mem_cons] at h
    rcases h with h | rfl | h
    · exact isNumeral_withPoint (htake 1) (hdrop 1) h
    · rfl
    · exact isNumeral_exponentText h
  · split at h
    · refine isNumeral_withPoint (hzero 1) (fun c hc => ?_) h
      rw [List.mem_append] at hc
      exact hc.elim (hzero _ c) (hdigits c)
    · exact isNumeral_withPoint (htake _) (hdrop _) h

theorem isNumeral_generalFormatTo {num den : Nat} {c : Fin 256}
    (h : c ∈ generalFormatTo p num den) : isNumeral c = true := by
  unfold generalFormatTo at h
  split at h
  · rw [List.mem_singleton.mp h]
    rfl
  · exact isNumeral_layOut h

end Reading

end VectorDb.Lib
