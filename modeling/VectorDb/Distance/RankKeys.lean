import VectorDb.Core.Vector
import VectorDb.Distance.Kernels
import VectorDb.Lib.Extended

/-!
The rank keys of src/distance/distance.cpp, in exact arithmetic that overflows.
-/
set_option autoImplicit false

namespace VectorDb.Distance

open VectorDb.Lib

/-- Results of a greater magnitude are rounded to infinities: 2^128 and half a unit in the last
place of the greatest `float` less. -/
def overflowThreshold : ℚ := 2 ^ 128 - 2 ^ 103

/-- The value of a finite `float`. -/
def componentValue (x : BitVec 32) : ℚ :=
  let exponent := (x.extractLsb' 23 8).toNat
  let fraction := (x.extractLsb' 0 23).toNat
  let magnitude : ℚ :=
    if exponent = 0 then fraction / 2 ^ 149 else (2 ^ 23 + fraction) * 2 ^ exponent / 2 ^ 150
  if x.msb then -magnitude else magnitude

def toExtended (x : BitVec 32) : Extended :=
  if Component.isFinite x then .finite (componentValue x)
  else if Component.isNaN x then .nan
  else .infinite x.msb

/-- A square root, which may round, but keeps order and signs. -/
structure SquareRoot where
  sqrt : ℚ → ℚ
  sqrt_zero : sqrt 0 = 0
  sqrt_pos : ∀ x, 0 < x → 0 < sqrt x
  sqrt_mono : ∀ x y, x ≤ y → sqrt x ≤ sqrt y

/-- `std::sqrt`. -/
def SquareRoot.apply (root : SquareRoot) : Extended → Extended
  | .finite q => if q < 0 then .nan else .finite (root.sqrt q)
  | .infinite negative => if negative then .nan else .infinite false
  | .nan => .nan

/-- `l2_norm_squared`: the `double` sum is exact, the `float` it is cast to may overflow. -/
def l2NormSquared (vector : FloatVector) : Extended :=
  Extended.rounded overflowThreshold (vector.foldl
    (fun sum value => sum.plus ((toExtended value).product (toExtended value))) (.finite 0))

def l2Norm (root : SquareRoot) (vector : FloatVector) : Extended :=
  root.apply (l2NormSquared vector)

/-- A pair of components; a `VectorView` is never read past its end. -/
def pairAt (a b : FloatVector) (i : Nat) : Extended × Extended :=
  (toExtended (a.getD i 0#32), toExtended (b.getD i 0#32))

/-- `a[i] * b[i]`. -/
def dotOps : KernelOps (Extended × Extended) Extended where
  zero := .finite 0
  add := Extended.add overflowThreshold
  term x := Extended.mul overflowThreshold x.1 x.2
  fused x := Extended.fma overflowThreshold x.1 x.2

/-- `d * d` of the difference `d = a[i] - b[i]`. -/
def l2SquaredOps : KernelOps (Extended × Extended) Extended where
  zero := .finite 0
  add := Extended.add overflowThreshold
  term x :=
    let d := Extended.sub overflowThreshold x.1 x.2
    Extended.mul overflowThreshold d d
  fused x :=
    let d := Extended.sub overflowThreshold x.1 x.2
    Extended.fma overflowThreshold d d

def Kernel.dot (kernel : Kernel) (a b : FloatVector) : Extended :=
  kernel.sum dotOps a.length (pairAt a b)

def Kernel.l2Squared (kernel : Kernel) (a b : FloatVector) : Extended :=
  kernel.sum l2SquaredOps a.length (pairAt a b)

def cosineRankKey (dot normA normB : Extended) : Extended :=
  let denominator := Extended.mul overflowThreshold normA normB
  if denominator.lessEqual (.finite 0) then .finite 1
  else
    let similarity := Extended.div overflowThreshold dot denominator
    if Extended.less (.finite 1) similarity then .finite 0
    else if similarity.less (.finite (-1)) then .finite 2
    else Extended.sub overflowThreshold (.finite 1) similarity

/-- `DistanceFunction::with_norms`. -/
def withNorms (kernel : Kernel) (metric : Metric) (a : FloatVector) (normA : Extended)
    (b : FloatVector) (normB : Extended) : Extended :=
  match metric with
  | .l2Squared => kernel.l2Squared a b
  | .innerProduct => (kernel.dot a b).neg
  | .cosine => cosineRankKey (kernel.dot a b) normA normB

section Dot

/-- The products and sums of a dot product, in the order of the kernel. -/
def summationOps : KernelOps (ℚ × ℚ) Summation where
  zero := .exact 0
  add := .add
  term x := .rounded (x.1 * x.2)
  fused x := .add (.exact (x.1 * x.2))

def valueAt (a b : FloatVector) (i : Nat) : ℚ × ℚ :=
  (componentValue (a.getD i 0#32), componentValue (b.getD i 0#32))

def Kernel.summation (kernel : Kernel) (a b : FloatVector) : Summation :=
  kernel.sum summationOps a.length (valueAt a b)

theorem eval_related : Related dotOps summationOps
    (fun x y => x = (.finite y.1, .finite y.2)) fun s t => s = t.eval overflowThreshold where
  zero := rfl
  add _ _ _ _ hs ht := by rw [hs, ht]; rfl
  term _ _ hx := by rw [hx]; rfl
  fused _ _ _ _ hx hs := by rw [hx, hs]; rfl

/-- What a term measures, in place of the term. -/
theorem weight_related : Related summationOps (exactOps fun x : ℚ × ℚ => |x.1 * x.2|)
    Eq fun t w => t.weight = w where
  zero := by simp [summationOps, Summation.weight]
  add _ _ _ _ hs ht := by rw [← hs, ← ht]; rfl
  term _ _ hx := by rw [hx]; rfl
  fused _ _ _ _ hx hs := by rw [hx, ← hs]; rfl

/-- The sum of squares. -/
def squares (vector : FloatVector) : ℚ := (vector.map fun x => componentValue x ^ 2).sum

theorem sum_map_getD (vector : FloatVector) (g : BitVec 32 → ℚ) :
    (vector.map g).sum = ∑ i ∈ Finset.range vector.length, g (vector.getD i 0#32) := by
  induction vector with
  | nil => simp
  | cons x vector ih =>
    rw [List.map_cons, List.sum_cons, ih, List.length_cons, Finset.sum_range_succ', add_comm]
    rfl

/-- Each product is at most half of the two squares. -/
theorem weight_summation_le (kernel : Kernel) {a b : FloatVector} (hlen : a.length = b.length) :
    (kernel.summation a b).weight ≤ (squares a + squares b) / 2 := by
  have hweight : (kernel.summation a b).weight =
      ∑ i ∈ Finset.range a.length, |(valueAt a b i).1 * (valueAt a b i).2| := by
    rw [← kernel.sum_exactOps (fun x : ℚ × ℚ => |x.1 * x.2|) a.length (valueAt a b)]
    exact weight_related.sum (fun _ => rfl) kernel a.length
  have hterm : ∀ x y : ℚ, |x * y| ≤ (x ^ 2 + y ^ 2) / 2 := by
    intro x y
    rw [abs_le]
    constructor
    · linarith [sq_nonneg (x + y), add_sq x y]
    · linarith [sq_nonneg (x - y), sub_sq x y]
  calc (kernel.summation a b).weight
      ≤ ∑ i ∈ Finset.range a.length,
          ((valueAt a b i).1 ^ 2 + (valueAt a b i).2 ^ 2) / 2 := by
        rw [hweight]
        exact Finset.sum_le_sum fun i _ => hterm _ _
    _ = (squares a + squares b) / 2 := by
        rw [squares, squares, sum_map_getD a, sum_map_getD b, ← hlen, ← Finset.sum_add_distrib,
          Finset.sum_div]
        rfl

end Dot

section Accepted
variable {a b vector : FloatVector} {dimension : Dimension}

theorem toExtended_of_finite {x : BitVec 32} (h : Component.isFinite x = true) :
    toExtended x = .finite (componentValue x) := by
  simp [toExtended, h]

/-- An accepted vector is as long as it should be, and its components are finite. -/
theorem accepted (h : validateVector vector dimension = .ok ()) :
    vector.length = dimension ∧
      ∀ i, toExtended (vector.getD i 0#32) = .finite (componentValue (vector.getD i 0#32)) := by
  refine ⟨validateVector_length h, fun i => toExtended_of_finite ?_⟩
  rw [validateVector, if_neg (not_not.mpr (validateVector_length h))] at h
  split at h
  · cases h
  next hfind =>
    rw [not_not, findNonFinite, List.findIdx_eq_length] at hfind
    by_cases hi : i < vector.length
    · have hcomponent := hfind vector[i] (List.getElem_mem hi)
      rw [List.getD_eq_getElem _ _ hi]
      simpa using hcomponent
    · rw [List.getD_eq_default _ _ (by omega)]
      decide

theorem l2NormSquared_accepted (h : validateVector vector dimension = .ok ()) :
    l2NormSquared vector = Extended.rounded overflowThreshold (.finite (squares vector)) := by
  have hfinite : ∀ x ∈ vector, toExtended x = .finite (componentValue x) := by
    intro x hx
    obtain ⟨i, hi, rfl⟩ := List.getElem_of_mem hx
    have := (accepted h).2 i
    rwa [List.getD_eq_getElem _ _ hi] at this
  have hsum : ∀ s : ℚ, vector.foldl (fun (sum : Extended) (value : BitVec 32) =>
      sum.plus ((toExtended value).product (toExtended value))) (Extended.finite s) =
        Extended.finite (s + squares vector) := by
    clear h
    induction vector with
    | nil => simp [squares]
    | cons x vector ih =>
      intro s
      have hx : (Extended.finite s).plus ((toExtended x).product (toExtended x)) =
          .finite (s + componentValue x ^ 2) := by
        rw [hfinite x List.mem_cons_self, sq]
        rfl
      rw [List.foldl_cons, hx, ih fun y hy => hfinite y (List.mem_cons_of_mem x hy)]
      simp [squares, add_assoc]
  rw [l2NormSquared, hsum 0, zero_add]

theorem squares_nonneg (vector : FloatVector) : 0 ≤ squares vector := by
  refine List.sum_nonneg fun x hx => ?_
  obtain ⟨y, _, rfl⟩ := List.mem_map.mp hx
  exact sq_nonneg _

theorem l2Norm_accepted (root : SquareRoot) (h : validateVector vector dimension = .ok ()) :
    l2Norm root vector =
      if squares vector ≤ overflowThreshold then .finite (root.sqrt (squares vector))
      else .infinite false := by
  have hpos := squares_nonneg vector
  rw [l2Norm, l2NormSquared_accepted h, Extended.rounded, abs_of_nonneg hpos]
  split
  · simp [SquareRoot.apply, not_lt.mpr hpos]
  · simp [SquareRoot.apply, not_lt.mpr hpos]

theorem dot_accepted (kernel : Kernel) (ha : validateVector a dimension = .ok ())
    (hb : validateVector b dimension = .ok ()) :
    kernel.dot a b = (kernel.summation a b).eval overflowThreshold :=
  eval_related.sum (fun i => by rw [pairAt, (accepted ha).2 i, (accepted hb).2 i]; rfl) kernel
    a.length

end Accepted

section L2

/-- The difference of two finite components is no NaN, and neither are squares of it. -/
theorem nonNegative_related : Related l2SquaredOps l2SquaredOps
    (fun x _ => Extended.sub overflowThreshold x.1 x.2 ≠ .nan) fun s _ => s.NonNegative where
  zero := le_refl (0 : ℚ)
  add _ _ _ _ hs ht := hs.add ht
  term _ _ hx := (Extended.nonNegative_product_self hx).rounded
  fused _ _ _ _ hx hs := (Extended.nonNegative_product_self hx).add hs

theorem rounded_ne_nan (q : ℚ) : Extended.rounded overflowThreshold (.finite q) ≠ .nan := by
  by_cases h : |q| ≤ overflowThreshold
  · simp [Extended.rounded, h]
  · simp [Extended.rounded, h]

theorem l2Squared_ne_nan (kernel : Kernel) {a b : FloatVector} {dimension : Dimension}
    (ha : validateVector a dimension = .ok ()) (hb : validateVector b dimension = .ok ()) :
    kernel.l2Squared a b ≠ .nan := by
  refine Extended.NonNegative.ne_nan (nonNegative_related.sum (y := pairAt a b) (fun i => ?_) kernel a.length)
  rw [pairAt, (accepted ha).2 i, (accepted hb).2 i]
  exact rounded_ne_nan _

end L2

section Cosine
variable {dot normA normB : Extended}

/-- A quotient is cut off at both ends; it comes out as NaN only where it is one. -/
theorem cosineRankKey_ne_nan_iff (h : (Extended.mul overflowThreshold normA normB).lessEqual
    (.finite 0) = false) : cosineRankKey dot normA normB ≠ .nan ↔
      Extended.div overflowThreshold dot (Extended.mul overflowThreshold normA normB) ≠ .nan := by
  rw [cosineRankKey, h]
  generalize Extended.div overflowThreshold dot (Extended.mul overflowThreshold normA normB) = x
  cases x with
  | finite q =>
    have hsub : Extended.sub overflowThreshold (.finite 1) (.finite q) ≠ .nan :=
      rounded_ne_nan (1 + -q)
    by_cases hgreat : 1 < q
    · simp [Extended.less, hgreat]
    · by_cases hsmall : q < -1
      · simp [Extended.less, hgreat, hsmall]
      · simpa [Extended.less, hgreat, hsmall] using hsub
  | infinite s => cases s <;> simp [Extended.less]
  | nan => simp [Extended.less, Extended.sub, Extended.neg, Extended.add, Extended.plus,
      Extended.rounded]

/-- Finite norms: a quotient of finite numbers, or zero. -/
theorem cosineRankKey_of_finite {p q r : ℚ} :
    cosineRankKey (.finite p) (.finite q) (.finite r) ≠ .nan := by
  cases hle : (Extended.mul overflowThreshold (.finite q) (.finite r)).lessEqual (.finite 0) with
  | true => simp [cosineRankKey, hle]
  | false =>
    rw [cosineRankKey_ne_nan_iff hle]
    by_cases hqr : |q * r| ≤ overflowThreshold
    · have hmul : Extended.mul overflowThreshold (.finite q) (.finite r) = .finite (q * r) := by
        rw [Extended.mul, Extended.product, Extended.rounded, if_pos hqr]
      have hne : q * r ≠ 0 := by
        rw [hmul] at hle
        rintro hzero
        simp [Extended.lessEqual, hzero] at hle
      rw [hmul, Extended.div, if_neg hne]
      exact rounded_ne_nan _
    · have hmul : Extended.mul overflowThreshold (.finite q) (.finite r) =
          .infinite (decide (q * r < 0)) := by
        rw [Extended.mul, Extended.product, Extended.rounded, if_neg hqr]
      simp [hmul, Extended.div]

/-- An infinite product of norms: only a finite number is divided by it. -/
theorem cosineRankKey_of_infinite
    (h : Extended.mul overflowThreshold normA normB = .infinite false) :
    cosineRankKey dot normA normB ≠ .nan ↔ ∃ q, dot = .finite q := by
  rw [cosineRankKey_ne_nan_iff (by simp [h, Extended.lessEqual, Extended.less]), h]
  cases dot <;> simp [Extended.div]

theorem cosineRankKey_of_nan (h : Extended.mul overflowThreshold normA normB = .nan) :
    cosineRankKey dot normA normB = .nan := by
  by_contra hne
  refine (cosineRankKey_ne_nan_iff (by simp [h, Extended.lessEqual, Extended.less])).mp hne ?_
  cases dot <;> simp [h, Extended.div]

theorem ne_zero_of_not_le_overflowThreshold {q : ℚ} (h : ¬ q ≤ overflowThreshold) : q ≠ 0 := by
  rintro rfl
  exact h (by norm_num [overflowThreshold])

theorem SquareRoot.sqrt_eq_zero_iff (root : SquareRoot) {x : ℚ} (hx : 0 ≤ x) :
    root.sqrt x = 0 ↔ x = 0 := by
  constructor
  · intro hzero
    by_contra hne
    exact (root.sqrt_pos x (lt_of_le_of_ne hx (Ne.symm hne))).ne' hzero
  · rintro rfl
    exact root.sqrt_zero

variable {a b : FloatVector} {dimension : Dimension}

/-- An infinite norm times the other one: NaN when the other vector is zero. -/
theorem mul_infinite_l2Norm (root : SquareRoot) (hb : validateVector b dimension = .ok ()) :
    Extended.mul overflowThreshold (.infinite false) (l2Norm root b) =
      if squares b = 0 then .nan else .infinite false := by
  have hpos := squares_nonneg b
  have hsqrt : 0 ≤ root.sqrt (squares b) := by
    rw [← root.sqrt_zero]
    exact root.sqrt_mono _ _ hpos
  rw [l2Norm_accepted root hb]
  by_cases hle : squares b ≤ overflowThreshold
  · rw [if_pos hle]
    by_cases hzero : squares b = 0
    · simp [hzero, root.sqrt_zero, Extended.mul, Extended.product, Extended.rounded]
    · have hroot := mt (root.sqrt_eq_zero_iff hpos).mp hzero
      simp [hzero, hroot, not_lt.mpr hsqrt, Extended.mul, Extended.product, Extended.rounded]
  · simp [hle, ne_zero_of_not_le_overflowThreshold hle, Extended.mul, Extended.product,
      Extended.rounded]

theorem mul_l2Norm_infinite (root : SquareRoot) (ha : validateVector a dimension = .ok ()) :
    Extended.mul overflowThreshold (l2Norm root a) (.infinite false) =
      if squares a = 0 then .nan else .infinite false := by
  rw [Extended.mul, Extended.product_comm]
  exact mul_infinite_l2Norm root ha

/-- Both norms are finite, or their product is infinite, or one is infinite and one zero. -/
theorem cosineRankKey_l2Norm_iff (root : SquareRoot) (kernel : Kernel)
    (ha : validateVector a dimension = .ok ()) (hb : validateVector b dimension = .ok ()) :
    cosineRankKey (kernel.dot a b) (l2Norm root a) (l2Norm root b) ≠ .nan ↔
      (squares a ≤ overflowThreshold ∧ squares b ≤ overflowThreshold) ∨
        (squares a ≠ 0 ∧ squares b ≠ 0 ∧
          (kernel.summation a b).Within overflowThreshold) := by
  have hdot := dot_accepted kernel ha hb
  have hfinite : (∃ q, kernel.dot a b = .finite q) ↔
      (kernel.summation a b).Within overflowThreshold := by
    rw [hdot]
    exact (kernel.summation a b).eval_eq_finite_iff
  by_cases hboth : squares a ≤ overflowThreshold ∧ squares b ≤ overflowThreshold
  · have hweight := weight_summation_le kernel
      ((accepted ha).1.trans (accepted hb).1.symm)
    obtain ⟨q, hq⟩ := hfinite.mpr (Summation.within_of_weight_le (by linarith [hboth.1, hboth.2]))
    rw [l2Norm_accepted root ha, l2Norm_accepted root hb, if_pos hboth.1, if_pos hboth.2, hq]
    simp only [cosineRankKey_of_finite, hboth, ne_eq, not_false_eq_true, and_self, true_or]
  · have hmul : Extended.mul overflowThreshold (l2Norm root a) (l2Norm root b) =
        if squares a ≠ 0 ∧ squares b ≠ 0 then .infinite false else .nan := by
      by_cases hle : squares a ≤ overflowThreshold
      · have hgreat : ¬ squares b ≤ overflowThreshold := fun h => hboth ⟨hle, h⟩
        rw [l2Norm_accepted root hb, if_neg hgreat, mul_l2Norm_infinite root ha]
        by_cases hzero : squares a = 0
        · simp [hzero]
        · simp [hzero, ne_zero_of_not_le_overflowThreshold hgreat]
      · rw [l2Norm_accepted root ha, if_neg hle, mul_infinite_l2Norm root hb]
        by_cases hzero : squares b = 0
        · simp [hzero]
        · simp [hzero, ne_zero_of_not_le_overflowThreshold hle]
    by_cases hzero : squares a ≠ 0 ∧ squares b ≠ 0
    · rw [if_pos hzero] at hmul
      rw [cosineRankKey_of_infinite hmul, hfinite]
      simp [hboth, hzero]
    · rw [if_neg hzero] at hmul
      have hnot : ¬ (squares a ≠ 0 ∧ squares b ≠ 0 ∧
          (kernel.summation a b).Within overflowThreshold) := fun h => hzero ⟨h.1, h.2.1⟩
      simp [cosineRankKey_of_nan hmul, hboth, hnot]

end Cosine

/-- The rank key of two accepted vectors is a NaN only where numbers overflow: products and
partial sums to both sides, or norms to infinities that meet zeros or infinities. -/
theorem withNorms_ne_nan_iff (root : SquareRoot) (kernel : Kernel) (metric : Metric)
    {a b : FloatVector} {dimension : Dimension} (ha : validateVector a dimension = .ok ())
    (hb : validateVector b dimension = .ok ()) :
    withNorms kernel metric a (l2Norm root a) b (l2Norm root b) ≠ .nan ↔
      match metric with
      | .l2Squared => True
      | .innerProduct => ¬ ((kernel.summation a b).Passes overflowThreshold false ∧
          (kernel.summation a b).Passes overflowThreshold true)
      | .cosine => (squares a ≤ overflowThreshold ∧ squares b ≤ overflowThreshold) ∨
          (squares a ≠ 0 ∧ squares b ≠ 0 ∧
            (kernel.summation a b).Within overflowThreshold) := by
  cases metric with
  | l2Squared => simpa [withNorms] using l2Squared_ne_nan kernel ha hb
  | innerProduct =>
    have hneg : (kernel.dot a b).neg = .nan ↔ kernel.dot a b = .nan := by
      cases kernel.dot a b <;> simp [Extended.neg]
    rw [withNorms, ne_eq, hneg, dot_accepted kernel ha hb, Summation.eval_eq_nan_iff]
  | cosine => exact cosineRankKey_l2Norm_iff root kernel ha hb

/-- Eighteen components: a block of the kernel, and two more. -/
theorem withNorms_ne_nan_opposite :
    let root : SquareRoot := ⟨id, rfl, fun _ h => h, fun _ _ h => h⟩
    let a := List.replicate 18 0x3f800000#32
    let b := List.replicate 18 0xbf800000#32
    withNorms .neon .cosine a (l2Norm root a) b (l2Norm root b) ≠ .nan := by
  intro root a b
  have ha : validateVector a 18 = .ok () := by decide
  have hb : validateVector b 18 = .ok () := by decide
  exact (withNorms_ne_nan_iff root .neon .cosine ha hb).mpr
    (.inl ⟨by decide +kernel, by decide +kernel⟩)

/-- The greatest `float` twice, and once with either sign: the sum of +inf and -inf. -/
theorem products_overflow_to_both_sides :
    let a := [0x7f7fffff#32, 0x7f7fffff#32]
    let b := [0x7f7fffff#32, 0xff7fffff#32]
    validateVector a 2 = .ok () ∧ validateVector b 2 = .ok () ∧
      ∀ (root : SquareRoot) (kernel : Kernel),
        withNorms kernel .innerProduct a (l2Norm root a) b (l2Norm root b) = .nan := by
  intro a b
  have hdot : ∀ kernel : Kernel, kernel.dot a b = .nan := by
    intro kernel
    cases kernel with
    | scalar => decide +kernel
    | neon => decide +kernel
    | avx2 => decide +kernel
  exact ⟨by decide, by decide, fun root kernel => by rw [withNorms, hdot kernel]; rfl⟩

end VectorDb.Distance
