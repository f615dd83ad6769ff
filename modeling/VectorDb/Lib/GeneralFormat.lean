import VectorDb.Lib.Decimal
import VectorDb.Lib.Rounding

/-!
Fractions in the general format: six significant digits, in fixed or in scientific notation,
without the zeros at their end.
-/
set_option autoImplicit false

namespace VectorDb.Lib

/-- The exponent of the first significant digit. -/
def decimalExponent (num den : Nat) : Int :=
  if den ≤ num then Nat.log 10 (num / den) else -(Nat.clog 10 ((den + num - 1) / num) : Int)

/-- Six digits and their exponent; rounding may carry into a seventh. -/
def sixDigits (num den : Nat) : Nat × Int :=
  let x := decimalExponent num den
  let d :=
    if x ≤ 5 then roundHalfEven (num * 10 ^ (5 - x).toNat) den
    else roundHalfEven num (den * 10 ^ (x - 5).toNat)
  if d = 1000000 then (100000, x + 1) else (d, x)

def dropZeros (digits : List (Fin 256)) : List (Fin 256) :=
  (digits.reverse.dropWhile (· = 48)).reverse

/-- The fraction's digits behind a point, if there are any. -/
def withPoint (whole fraction : List (Fin 256)) : List (Fin 256) :=
  if dropZeros fraction = [] then whole else whole ++ 46 :: dropZeros fraction

def exponentText (x : Int) : List (Fin 256) :=
  (if x < 0 then 45 else 43) ::
    ((if x.natAbs < 10 then [48] else []) ++ decimalDigits x.natAbs)

/-- `%g` of a fraction that is not negative. -/
def generalFormat (num den : Nat) : List (Fin 256) :=
  if num = 0 then [48]
  else
    let (d, x) := sixDigits num den
    let digits := decimalDigits d
    if x < -4 ∨ 6 ≤ x then withPoint (digits.take 1) (digits.drop 1) ++ 101 :: exponentText x
    else if x < 0 then withPoint [48] (List.replicate (-1 - x).toNat 48 ++ digits)
    else withPoint (digits.take (x.toNat + 1)) (digits.drop (x.toNat + 1))

/-- What a number in this format is made of. -/
def isNumeral (c : Fin 256) : Bool := isDigit c || c = 46 || c = 45 || c = 43 || c = 101

section Numerals
variable {c : Fin 256}

theorem mem_dropZeros {digits : List (Fin 256)} (h : c ∈ dropZeros digits) : c ∈ digits := by
  rw [dropZeros, List.mem_reverse] at h
  exact List.mem_reverse.mp ((List.dropWhile_sublist _).subset h)

theorem mem_withPoint {whole fraction : List (Fin 256)} (h : c ∈ withPoint whole fraction) :
    c ∈ whole ∨ c = 46 ∨ c ∈ fraction := by
  unfold withPoint at h
  split at h
  · exact .inl h
  · rw [List.mem_append, List.mem_cons] at h
    rcases h with h | h | h
    · exact .inl h
    · exact .inr (.inl h)
    · exact .inr (.inr (mem_dropZeros h))

theorem isNumeral_digit (h : isDigit c = true) : isNumeral c = true := by
  rw [isNumeral, h]
  rfl

theorem isNumeral_decimalDigits {n : Nat} (h : c ∈ decimalDigits n) : isNumeral c = true :=
  isNumeral_digit (isDigit_decimalDigits n c h)

theorem isNumeral_withPoint {whole fraction : List (Fin 256)}
    (hwhole : ∀ c ∈ whole, isNumeral c = true) (hfraction : ∀ c ∈ fraction, isNumeral c = true)
    (h : c ∈ withPoint whole fraction) : isNumeral c = true := by
  rcases mem_withPoint h with h | rfl | h
  · exact hwhole c h
  · rfl
  · exact hfraction c h

theorem isNumeral_exponentText {x : Int} (h : c ∈ exponentText x) : isNumeral c = true := by
  rw [exponentText, List.mem_cons, List.mem_append] at h
  rcases h with rfl | h | h
  · split <;> rfl
  · split at h
    · rw [List.mem_singleton.mp h]
      rfl
    · cases h
  · exact isNumeral_decimalDigits h

theorem isNumeral_generalFormat {num den : Nat} (h : c ∈ generalFormat num den) :
    isNumeral c = true := by
  have hdigits : ∀ d, ∀ c ∈ decimalDigits d, isNumeral c = true :=
    fun d c hc => isNumeral_decimalDigits hc
  unfold generalFormat at h
  split at h
  · rw [List.mem_singleton.mp h]
    rfl
  · dsimp only at h
    split at h
    · rw [List.mem_append, List.mem_cons] at h
      rcases h with h | rfl | h
      · exact isNumeral_withPoint (fun c hc => hdigits _ c (List.mem_of_mem_take hc))
          (fun c hc => hdigits _ c (List.mem_of_mem_drop hc)) h
      · rfl
      · exact isNumeral_exponentText h
    · split at h
      · refine isNumeral_withPoint (fun c hc => ?_) (fun c hc => ?_) h
        · rw [List.mem_singleton.mp hc]
          rfl
        · rw [List.mem_append] at hc
          rcases hc with hc | hc
          · rw [List.eq_of_mem_replicate hc]
            rfl
          · exact hdigits _ c hc
      · exact isNumeral_withPoint (fun c hc => hdigits _ c (List.mem_of_mem_take hc))
          (fun c hc => hdigits _ c (List.mem_of_mem_drop hc)) h

theorem withPoint_ne_nil {whole : List (Fin 256)} (h : whole ≠ []) (fraction : List (Fin 256)) :
    withPoint whole fraction ≠ [] := by
  unfold withPoint
  split
  · exact h
  · simp

theorem generalFormat_ne_nil (num den : Nat) : generalFormat num den ≠ [] := by
  have htake : ∀ d n, (decimalDigits d).take (n + 1) ≠ [] := by
    intro d n
    have h := decimalDigits_ne_nil d
    simpa using h
  unfold generalFormat
  split
  · simp
  · dsimp only
    split
    · simp
    · split
      · exact withPoint_ne_nil (by simp) _
      · exact withPoint_ne_nil (htake _ _) _

end Numerals

end VectorDb.Lib
