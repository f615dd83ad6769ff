import VectorDb.Lib.Word

/-!
Integers in decimal, as ASCII bytes.
-/
set_option autoImplicit false

namespace VectorDb.Lib

def isDigit (c : Fin 256) : Bool := 48 ≤ c && c ≤ 57

def decimalDigits (n : Nat) : List (Fin 256) :=
  if n = 0 then [48] else (Nat.digits 10 n).reverse.map fun d => Fin.ofNat 256 (48 + d)

/-- `std::to_string` of an integer. -/
def decimal (n : Int) : List (Fin 256) :=
  if n < 0 then 45 :: decimalDigits n.natAbs else decimalDigits n.natAbs

def readDigits (digits : List (Fin 256)) : Nat :=
  digits.foldl (fun n c => 10 * n + (c.val - 48)) 0

/-- The integer a text is, if it is one from its first character to its last. -/
def readDecimal (text : List (Fin 256)) : Option Int :=
  match text with
  | [] => none
  | sign :: digits =>
    if sign = 45 then
      if digits ≠ [] ∧ digits.all isDigit then some (-readDigits digits) else none
    else if (sign :: digits).all isDigit then some (readDigits (sign :: digits)) else none

theorem val_digit {d : Nat} (h : d < 10) : (Fin.ofNat 256 (48 + d)).val = 48 + d := by
  rw [Fin.val_ofNat, Nat.mod_eq_of_lt (by omega)]

theorem decimalDigits_ne_nil (n : Nat) : decimalDigits n ≠ [] := by
  unfold decimalDigits
  split
  · simp
  next h => simpa [Nat.digits_eq_nil_iff_eq_zero] using h

theorem isDigit_decimalDigits (n : Nat) : ∀ c ∈ decimalDigits n, isDigit c = true := by
  unfold decimalDigits
  split
  · simp [isDigit]
  · intro c hc
    obtain ⟨d, hd, rfl⟩ := List.mem_map.mp hc
    have hlt : d < 10 := Nat.digits_lt_base (by decide) (List.mem_reverse.mp hd)
    have hval := val_digit hlt
    simp only [isDigit, Bool.and_eq_true, decide_eq_true_eq, Fin.le_def, hval]
    exact ⟨Nat.le_add_right 48 d, by change 48 + d ≤ 57; omega⟩

@[simp] theorem readDigits_decimalDigits (n : Nat) : readDigits (decimalDigits n) = n := by
  unfold decimalDigits
  split
  next h => simp [readDigits, h]
  next =>
    have hall : ∀ d ∈ Nat.digits 10 n, d < 10 := fun d hd => Nat.digits_lt_base (by decide) hd
    calc readDigits ((Nat.digits 10 n).reverse.map fun d => Fin.ofNat 256 (48 + d))
        = (Nat.digits 10 n).foldr (fun d m => 10 * m + ((Fin.ofNat 256 (48 + d)).val - 48)) 0 := by
          rw [readDigits, List.foldl_map, List.foldl_reverse]
      _ = Nat.ofDigits 10 (Nat.digits 10 n) := by
          generalize Nat.digits 10 n = digits at hall
          induction digits with
          | nil => rfl
          | cons d digits ih =>
            rw [List.foldr_cons, ih fun e he => hall e (List.mem_cons_of_mem d he),
              val_digit (hall d List.mem_cons_self), Nat.ofDigits_cons]
            simp
            omega
      _ = n := Nat.ofDigits_digits 10 n

/-- The decimals: a minus sign and digits, or digits alone. -/
theorem readDecimal_eq_some_iff {text : List (Fin 256)} {n : Int} :
    readDecimal text = some n ↔
      (∃ digits, text = 45 :: digits ∧ digits ≠ [] ∧ (∀ c ∈ digits, isDigit c = true) ∧
        n = -(readDigits digits : Int)) ∨
      (text ≠ [] ∧ (∀ c ∈ text, isDigit c = true) ∧ n = readDigits text) := by
  cases text with
  | nil => simp [readDecimal]
  | cons sign digits =>
    rw [readDecimal]
    by_cases hsign : sign = 45
    · have hminus : ¬ ∀ c ∈ sign :: digits, isDigit c = true := fun hall => by
        have := hall sign List.mem_cons_self
        rw [hsign] at this
        revert this
        decide
      rw [if_pos hsign]
      simp only [List.all_eq_true]
      constructor
      · intro h
        split at h
        next hdigits => exact .inl ⟨digits, by rw [hsign], hdigits.1, hdigits.2,
          (Option.some.inj h).symm⟩
        next => cases h
      · rintro (⟨rest, heq, hne, hall, rfl⟩ | ⟨-, hall, -⟩)
        · obtain ⟨-, rfl⟩ := List.cons.inj heq
          rw [if_pos ⟨hne, hall⟩]
        · exact absurd hall hminus
    · rw [if_neg hsign]
      simp only [List.all_eq_true]
      constructor
      · intro h
        split at h
        next hall => exact .inr ⟨List.cons_ne_nil _ _, hall, (Option.some.inj h).symm⟩
        next => cases h
      · rintro (⟨rest, heq, -⟩ | ⟨-, hall, rfl⟩)
        · exact absurd (List.cons.inj heq).1 hsign
        · rw [if_pos hall]

/-- An integer reads back from its decimal. -/
theorem readDecimal_decimal (n : Int) : readDecimal (decimal n) = some n := by
  have hall := isDigit_decimalDigits n.natAbs
  have hne := decimalDigits_ne_nil n.natAbs
  unfold decimal
  split
  next hneg =>
    rw [readDecimal, if_pos rfl, if_pos ⟨hne, by simpa using hall⟩, readDigits_decimalDigits]
    congr 1
    omega
  next hpos =>
    have hread := readDigits_decimalDigits n.natAbs
    cases hdigits : decimalDigits n.natAbs with
    | nil => exact absurd hdigits hne
    | cons c digits =>
      rw [hdigits] at hall hread
      have hminus : c ≠ 45 := by
        rintro rfl
        have := hall 45 List.mem_cons_self
        revert this
        decide
      rw [readDecimal, if_neg hminus, if_pos (by simpa using hall), hread]
      congr 1
      omega

theorem decimal_ne_nil (n : Int) : decimal n ≠ [] := by
  unfold decimal
  split
  · simp
  · exact decimalDigits_ne_nil _

theorem decimal_chars (n : Int) : ∀ c ∈ decimal n, c = 45 ∨ isDigit c = true := by
  unfold decimal
  split
  · intro c hc
    rcases List.mem_cons.mp hc with rfl | hc
    · exact .inl rfl
    · exact .inr (isDigit_decimalDigits _ c hc)
  · exact fun c hc => .inr (isDigit_decimalDigits _ c hc)

end VectorDb.Lib
