import VectorDb.Storage.Filter
import VectorDb.Lib.Rounding

/-!
How filters compare numbers: through the nearest doubles, of which a NaN is neither
less nor greater than any.
-/
set_option autoImplicit false

namespace VectorDb.Storage

open VectorDb.Lib

section Magnitude
variable {m n : Nat}

/-- The 53 bits a positive natural is rounded to. -/
def significand (n : Nat) : Nat :=
  if n.log2 ≤ 52 then n * 2 ^ (52 - n.log2) else roundHalfEven n (2 ^ (n.log2 - 52))

theorem realOfMagnitude_eq (n : Nat) :
    realOfMagnitude n = (1022 + n.log2) * 2 ^ 52 + significand n := by
  unfold realOfMagnitude significand roundHalfEven
  by_cases h : n.log2 ≤ 52
  · have hshift : n.log2 - 52 = 0 := by omega
    simp [h, hshift, Nat.shiftLeft_eq, Nat.mod_one]
  · have hshift : 52 - n.log2 = 0 := by omega
    simp [h, hshift, Nat.shiftRight_eq_div_pow]

theorem significand_bounds (hn : 0 < n) :
    2 ^ 52 ≤ significand n ∧ significand n ≤ 2 ^ 53 := by
  have hlow : 2 ^ n.log2 ≤ n := Nat.log2_self_le hn.ne'
  have hhigh : n < 2 ^ (n.log2 + 1) := Nat.lt_log2_self
  unfold significand
  split
  next h =>
    have hpow : 2 ^ n.log2 * 2 ^ (52 - n.log2) = 2 ^ 52 := by
      rw [← Nat.pow_add]
      congr 1
      omega
    have hup : n * 2 ^ (52 - n.log2) ≤ 2 ^ (n.log2 + 1) * 2 ^ (52 - n.log2) :=
      Nat.mul_le_mul_right _ hhigh.le
    have hdown : 2 ^ n.log2 * 2 ^ (52 - n.log2) ≤ n * 2 ^ (52 - n.log2) :=
      Nat.mul_le_mul_right _ hlow
    rw [Nat.pow_succ, Nat.mul_right_comm, hpow] at hup
    rw [hpow] at hdown
    omega
  next h =>
    have hpow : 2 ^ n.log2 = 2 ^ 52 * 2 ^ (n.log2 - 52) := by
      rw [← Nat.pow_add]
      congr 1
      omega
    have hdown : 2 ^ 52 ≤ n / 2 ^ (n.log2 - 52) := by
      rw [Nat.le_div_iff_mul_le (by positivity), ← hpow]
      exact hlow
    have hup : n / 2 ^ (n.log2 - 52) < 2 ^ 53 := by
      rw [Nat.div_lt_iff_lt_mul (by positivity)]
      rw [Nat.pow_succ, hpow] at hhigh
      omega
    have hle := roundHalfEven_le n (2 ^ (n.log2 - 52))
    exact ⟨hdown.trans (div_le_roundHalfEven _ _), by omega⟩

theorem realOfMagnitude_mono (hm : 0 < m) (h : m ≤ n) : realOfMagnitude m ≤ realOfMagnitude n := by
  have hmbounds := significand_bounds hm
  have hnbounds := significand_bounds (hm.trans_le h)
  have hlog : m.log2 ≤ n.log2 := by
    rw [Nat.log2_eq_log_two, Nat.log2_eq_log_two]
    exact Nat.log_mono_right h
  rw [realOfMagnitude_eq, realOfMagnitude_eq]
  rcases Nat.lt_or_eq_of_le hlog with hlt | heq
  · omega
  · have hsignificand : significand m ≤ significand n := by
      unfold significand
      rw [heq]
      split
      · exact Nat.mul_le_mul_right _ h
      · exact roundHalfEven_mono h _
    omega

theorem realOfMagnitude_bounds (hn : 0 < n) (hfits : n < 2 ^ 64) :
    0 < realOfMagnitude n ∧ realOfMagnitude n < 2047 * 2 ^ 52 := by
  have hbounds := significand_bounds hn
  have hlog : n.log2 < 64 := (Nat.log2_lt hn.ne').mpr hfits
  rw [realOfMagnitude_eq]
  omega

end Magnitude

section Rank
variable {x : BitVec 64}

/-- The bits below the sign do not depend on it. -/
theorem extractLsb'_or_negativeZero (x : BitVec 64) {start len : Nat} (h : start + len ≤ 63) :
    (x ||| negativeZero).extractLsb' start len = x.extractLsb' start len := by
  ext i hi
  have hbit : ∀ j < 63, negativeZero.getLsbD j = false := by decide
  simp [BitVec.getElem_extractLsb', hbit (start + i) (by omega)]

theorem isNaN_of_lt (hx : x.toNat < 2047 * 2 ^ 52) : isNaN x = false := by
  have hne : x.extractLsb' 52 11 ≠ 0x7ff#11 := by
    intro heq
    have hval := congrArg BitVec.toNat heq
    simp only [BitVec.extractLsb'_toNat, Nat.shiftRight_eq_div_pow] at hval
    have hmod : x.toNat / 2 ^ 52 % 2 ^ 11 = 2047 := hval
    omega
  simp [isNaN, hne]

theorem isNaN_or_negativeZero (x : BitVec 64) : isNaN (x ||| negativeZero) = isNaN x := by
  rw [isNaN, isNaN, extractLsb'_or_negativeZero x (by decide),
    extractLsb'_or_negativeZero x (by decide)]

theorem realRank_of_lt (hx : x.toNat < 2 ^ 63) : realRank x = x.toNat := by
  have hmsb : x.msb = false := BitVec.msb_eq_false_iff_two_mul_lt.mpr (by omega)
  simp only [realRank, hmsb, BitVec.extractLsb'_toNat, Nat.shiftRight_zero]
  rw [if_neg (by decide), Nat.mod_eq_of_lt hx]

theorem realRank_or_negativeZero (hx : x.toNat < 2 ^ 63) :
    realRank (x ||| negativeZero) = -(x.toNat : Int) := by
  have hmsb : (x ||| negativeZero).msb = true := by
    rw [BitVec.msb_or, show negativeZero.msb = true from rfl, Bool.or_true]
  rw [realRank, hmsb, if_pos rfl, extractLsb'_or_negativeZero x (by decide),
    BitVec.extractLsb'_toNat, Nat.shiftRight_zero, Nat.mod_eq_of_lt hx]

/-- The double of this rank. -/
def realOfRank (rank : Int) : BitVec 64 :=
  let magnitude := BitVec.ofNat 64 rank.natAbs
  if rank < 0 then magnitude ||| negativeZero else magnitude

/-- Below the infinities every rank has a double, and it is a number. -/
theorem realRank_realOfRank {rank : Int} (h : rank.natAbs < 2047 * 2 ^ 52) :
    realRank (realOfRank rank) = rank ∧ isNaN (realOfRank rank) = false := by
  have hval : (BitVec.ofNat 64 rank.natAbs).toNat = rank.natAbs := by
    rw [BitVec.toNat_ofNat, Nat.mod_eq_of_lt (by omega)]
  unfold realOfRank
  dsimp only
  split
  next hneg =>
    rw [realRank_or_negativeZero (by omega), isNaN_or_negativeZero, isNaN_of_lt (by omega), hval]
    exact ⟨by omega, rfl⟩
  next hpos =>
    rw [realRank_of_lt (by omega), isNaN_of_lt (by omega), hval]
    exact ⟨by omega, rfl⟩

end Rank

/-- Where the double nearest to an integer stands. -/
def integerRank (n : Int) : Int := n.sign * realOfMagnitude n.natAbs

theorem integerRank_of_pos {n : Int} (h : 0 < n) : integerRank n = realOfMagnitude n.natAbs := by
  rw [integerRank, Int.sign_eq_one_of_pos h, one_mul]

theorem integerRank_of_neg {n : Int} (h : n < 0) :
    integerRank n = -(realOfMagnitude n.natAbs : Int) := by
  rw [integerRank, Int.sign_eq_neg_one_of_neg h, neg_one_mul]

@[simp] theorem integerRank_zero : integerRank 0 = 0 := by simp [integerRank]

theorem integerRank_mono {a b : Int} (h : a ≤ b) : integerRank a ≤ integerRank b := by
  rcases lt_trichotomy a 0 with ha | rfl | ha
  · rw [integerRank_of_neg ha]
    rcases lt_trichotomy b 0 with hb | rfl | hb
    · have hle : realOfMagnitude b.natAbs ≤ realOfMagnitude a.natAbs :=
        realOfMagnitude_mono (by omega) (by omega)
      rw [integerRank_of_neg hb]
      omega
    · simp
    · rw [integerRank_of_pos hb]
      omega
  · rcases lt_or_eq_of_le h with hb | rfl
    · rw [integerRank_of_pos hb]
      simp
    · exact le_rfl
  · have hle : realOfMagnitude a.natAbs ≤ realOfMagnitude b.natAbs :=
      realOfMagnitude_mono (by omega) (by omega)
    rw [integerRank_of_pos ha, integerRank_of_pos (ha.trans_le h)]
    omega

section Integer
variable (n : BitVec 64)

theorem integerRank_bounds (hn : n.toInt ≠ 0) :
    0 < realOfMagnitude n.toInt.natAbs ∧ realOfMagnitude n.toInt.natAbs < 2047 * 2 ^ 52 := by
  have hlow := BitVec.le_two_mul_toInt (x := n)
  have hhigh := BitVec.two_mul_toInt_lt (x := n)
  exact realOfMagnitude_bounds (by omega) (by omega)

theorem natAbs_integerRank_lt : (integerRank n.toInt).natAbs < 2047 * 2 ^ 52 := by
  by_cases hn : n.toInt = 0
  · simp [hn]
  · have hbounds := integerRank_bounds n hn
    rcases lt_or_gt_of_ne hn with h | h
    · rw [integerRank_of_neg h]
      omega
    · rw [integerRank_of_pos h]
      omega

theorem realOfInteger_eq : realOfInteger n = realOfRank (integerRank n.toInt) := by
  by_cases hzero : n = 0#64
  · subst hzero
    decide
  · have hn : n.toInt ≠ 0 := fun h => hzero (BitVec.eq_of_toInt_eq (by simpa using h))
    have hbounds := integerRank_bounds n hn
    have hmagnitude : (integerRank n.toInt).natAbs = realOfMagnitude n.toInt.natAbs := by
      rcases lt_or_gt_of_ne hn with h | h
      · rw [integerRank_of_neg h]
        omega
      · rw [integerRank_of_pos h]
        omega
    have hsign : integerRank n.toInt < 0 ↔ n.msb = true := by
      rw [BitVec.msb_eq_toInt, decide_eq_true_iff]
      rcases lt_or_gt_of_ne hn with h | h
      · rw [integerRank_of_neg h]
        omega
      · rw [integerRank_of_pos h]
        omega
    have hzero' : ¬ n = 0 := hzero
    simp only [realOfInteger, realOfRank, hmagnitude, hsign, if_neg hzero']

theorem realRank_realOfInteger : realRank (realOfInteger n) = integerRank n.toInt := by
  rw [realOfInteger_eq]
  exact (realRank_realOfRank (natAbs_integerRank_lt n)).1

theorem isNaN_realOfInteger : isNaN (realOfInteger n) = false := by
  rw [realOfInteger_eq]
  exact (realRank_realOfRank (natAbs_integerRank_lt n)).2

end Integer

/-- Integers stand at one place only when their doubles are the same. -/
theorem realOfInteger_eq_iff (a b : BitVec 64) :
    realOfInteger a = realOfInteger b ↔ integerRank a.toInt = integerRank b.toInt := by
  constructor
  · intro h
    rw [← realRank_realOfInteger, h, realRank_realOfInteger]
  · intro h
    rw [realOfInteger_eq, h, realOfInteger_eq]

/-- Two integers compare as they do, or as equals when their doubles are the same. -/
theorem compareValues_integers (a b : BitVec 64) :
    compareValues (.integer a) (.integer b) =
      some (if realOfInteger a = realOfInteger b then .eq else compare a.toInt b.toInt) := by
  simp only [compareValues, MetadataValue.number?, realLess, isNaN_realOfInteger,
    realRank_realOfInteger, realOfInteger_eq_iff, Bool.not_false, Bool.true_and,
    decide_eq_true_eq, Option.some.injEq]
  rcases lt_trichotomy a.toInt b.toInt with hab | hab | hab
  · have hle := integerRank_mono hab.le
    rw [compare_lt_iff_lt.mpr hab]
    split
    · rw [if_neg (by omega)]
    · rw [if_neg (by omega), if_pos (by omega)]
  · simp [hab]
  · have hle := integerRank_mono hab.le
    rw [compare_gt_iff_gt.mpr hab]
    split
    · omega
    · split
      · rw [if_neg (by omega)]
      · rw [if_pos (by omega)]

theorem realLess_isNaN {x y : BitVec 64} (h : isNaN x = true ∨ isNaN y = true) :
    realLess x y = false := by
  rcases h with h | h <;> simp [realLess, h]

/-- A NaN compares as an equal with any number, and with nothing else. -/
theorem compareValues_isNaN {stored wanted : MetadataValue} {bits : BitVec 64}
    (hnan : isNaN bits = true) (h : stored = .real bits ∨ wanted = .real bits) :
    compareValues stored wanted =
      if stored.number?.isSome ∧ wanted.number?.isSome then some .eq else none := by
  rcases h with rfl | rfl
  · cases wanted <;> simp [compareValues, MetadataValue.number?, realLess_isNaN, hnan]
  · cases stored <;> simp [compareValues, MetadataValue.number?, realLess_isNaN, hnan]

/-- The comparison the operator stands for. -/
def FilterOp.ofIntegers : FilterOp → Int → Int → Bool
  | .equal, a, b => a == b
  | .notEqual, a, b => a != b
  | .less, a, b => decide (a < b)
  | .lessEqual, a, b => decide (a ≤ b)
  | .greater, a, b => decide (b < a)
  | .greaterEqual, a, b => decide (b ≤ a)

theorem FilterOp.holds_compare (op : FilterOp) (a b : Int) :
    op.holds (compare a b) = op.ofIntegers a b := by
  rcases lt_trichotomy a b with h | rfl | h
  · rw [compare_lt_iff_lt.mpr h]
    cases op <;> simp [holds, ofIntegers, bne, h, h.le, h.ne, h.not_gt]
  · rw [compare_eq_iff_eq.mpr rfl]
    cases op <;> simp [holds, ofIntegers]
  · rw [compare_gt_iff_gt.mpr h]
    cases op <;> simp [holds, ofIntegers, bne, h, h.le, h.ne', h.not_gt]

/-- Taking two integers for equals is right for half of the operators where one is less. -/
theorem FilterOp.holds_eq_iff (op : FilterOp) (a b : Int) :
    op.holds .eq = op.ofIntegers a b ↔
      a = b ∨ (a < b ∧ (op = .lessEqual ∨ op = .greater)) ∨
        (b < a ∧ (op = .less ∨ op = .greaterEqual)) := by
  rcases lt_trichotomy a b with h | rfl | h
  · cases op <;> simp [holds, ofIntegers, bne, h, h.le, h.ne, h.not_gt]
  · cases op <;> simp [holds, ofIntegers]
  · cases op <;> simp [holds, ofIntegers, bne, h, h.le, h.ne', h.not_gt]

theorem FilterOp.holds_eq_false_iff (op : FilterOp) :
    op.holds .eq = false ↔ op = .notEqual ∨ op = .less ∨ op = .greater := by
  cases op <;> simp [holds]

/-- When a filter compares numbers as it should. -/
theorem FilterCondition.matches_numbers_iff (c : FilterCondition) (metadata : Metadata) :
    (∀ a b, metadata[c.key]? = some (.integer a) → c.value = .integer b →
      (c.matches metadata = c.op.ofIntegers a.toInt b.toInt ↔
        a = b ∨ realOfInteger a ≠ realOfInteger b ∨
          (a.toInt < b.toInt ∧ (c.op = .lessEqual ∨ c.op = .greater)) ∨
          (b.toInt < a.toInt ∧ (c.op = .less ∨ c.op = .greaterEqual)))) ∧
    ∀ bits, isNaN bits = true →
      (metadata[c.key]? = some (.real bits) ∨ c.value = .real bits) → c.op ≠ .notEqual →
      (c.matches metadata = false ↔
        (c.op = .less ∨ c.op = .greater) ∨ c.value.number? = none ∨
          ∀ stored, metadata[c.key]? = some stored → stored.number? = none) := by
  refine ⟨fun a b hstored hvalue => ?_, fun bits hnan hside hop => ?_⟩
  · rw [FilterCondition.matches, hstored, hvalue]
    simp only [compareValues_integers]
    by_cases hsame : realOfInteger a = realOfInteger b
    · have hab : a.toInt = b.toInt ↔ a = b := BitVec.toInt_inj
      rw [if_pos hsame, c.op.holds_eq_iff, hab]
      simp [hsame]
    · simp [hsame, FilterOp.holds_compare]
  · cases hstored : metadata[c.key]? with
    | none => simp [FilterCondition.matches, hstored]
    | some stored =>
      rw [hstored, Option.some.injEq] at hside
      simp only [FilterCondition.matches, hstored, compareValues_isNaN hnan hside, Option.some.injEq,
        forall_eq']
      by_cases hnumbers : stored.number?.isSome ∧ c.value.number?.isSome
      · have hs : stored.number? ≠ none := Option.isSome_iff_ne_none.mp hnumbers.1
        have hv : c.value.number? ≠ none := Option.isSome_iff_ne_none.mp hnumbers.2
        rw [if_pos hnumbers]
        simp [c.op.holds_eq_false_iff, hop, hs, hv]
      · have hone : c.value.number? = none ∨ stored.number? = none := by
          by_contra hboth
          simp only [not_or] at hboth
          exact hnumbers ⟨Option.isSome_iff_ne_none.mpr hboth.2,
            Option.isSome_iff_ne_none.mpr hboth.1⟩
        rw [if_neg hnumbers]
        simp [hone]

/-- One condition against one stored value. -/
theorem FilterCondition.matches_insert (c : FilterCondition) (stored : MetadataValue) :
    c.matches ((∅ : Metadata).insert c.key stored) =
      match compareValues stored c.value with
      | none => false
      | some order => c.op.holds order := by
  cases horder : compareValues stored c.value with
  | none => simp [FilterCondition.matches, horder]
  | some order => simp [FilterCondition.matches, horder]

theorem FilterCondition.matches_numbers_iff_five :
    (⟨[110], .less, .integer 6⟩ : FilterCondition).matches
        ((∅ : Metadata).insert [110] (.integer 5)) = true ∧
      (⟨[110], .less, .real 0x7ff8000000000000#64⟩ : FilterCondition).matches
        ((∅ : Metadata).insert [110] (.integer 5)) = false := by
  have hnan : isNaN 0x7ff8000000000000#64 = true := by decide
  refine ⟨?_, ?_⟩
  · refine (((matches_numbers_iff ⟨[110], .less, .integer 6⟩
      ((∅ : Metadata).insert [110] (.integer 5))).1 5 6 (by simp) rfl).mpr ?_).trans (by decide)
    exact .inr (.inl (by decide))
  · exact ((matches_numbers_iff ⟨[110], .less, .real 0x7ff8000000000000#64⟩
      ((∅ : Metadata).insert [110] (.integer 5))).2 _ hnan (.inr rfl) (by decide)).mpr
      (.inl (.inl rfl))

/-- 2^53 + 1 passes for 2^53, and any number for a NaN. -/
theorem filters_mistake_numbers :
    (¬ ∀ (a b : BitVec 64) (op : FilterOp) (key : Text),
      (⟨key, op, .integer b⟩ : FilterCondition).matches
        ((∅ : Metadata).insert key (.integer a)) = op.ofIntegers a.toInt b.toInt) ∧
    ¬ ∀ (a bits : BitVec 64) (op : FilterOp) (key : Text), isNaN bits = true → op ≠ .notEqual →
      (⟨key, op, .real bits⟩ : FilterCondition).matches
        ((∅ : Metadata).insert key (.integer a)) = false := by
  refine ⟨fun hall => ?_, fun hall => ?_⟩
  · have h := hall 9007199254740993 9007199254740992 .equal [110]
    rw [FilterCondition.matches_insert, compareValues_integers] at h
    exact absurd h (by decide)
  · have h := hall 1 0x7ff8000000000000#64 .equal [110] (by decide) (by decide)
    rw [FilterCondition.matches_insert,
      compareValues_isNaN (show isNaN 0x7ff8000000000000#64 = true by decide) (.inr rfl)] at h
    exact absurd h (by decide)

end VectorDb.Storage
