import VectorDb.Distance.RankKeys
import VectorDb.Lib.CountedLoop

/-!
The loops of kernel_scalar.cpp, kernel_neon.cpp and kernel_avx2.cpp, whose reads fail outside
the arrays: they add up the terms in the order of the kernels.
-/
set_option autoImplicit false

namespace VectorDb.Distance

open VectorDb.Lib

variable {R S : Type}

/-- The arithmetic of floats; `fma a b c` is `a * b + c`. -/
structure FloatOps (R : Type) where
  zero : R
  add : R → R → R
  sub : R → R → R
  mul : R → R → R
  fma : R → R → R → R

/-- The terms of `l2_squared`. -/
def FloatOps.difference (o : FloatOps R) : KernelOps (R × R) R where
  zero := o.zero
  add := o.add
  term x :=
    let d := o.sub x.1 x.2
    o.mul d d
  fused x sum :=
    let d := o.sub x.1 x.2
    o.fma d d sum

/-- The terms of `dot`. -/
def FloatOps.product (o : FloatOps R) : KernelOps (R × R) R where
  zero := o.zero
  add := o.add
  term x := o.mul x.1 x.2
  fused x sum := o.fma x.1 x.2 sum

/-- `sum0` to `sum3`, of one lane or several. -/
structure Accumulators (S : Type) where
  sum0 : S
  sum1 : S
  sum2 : S
  sum3 : S

namespace Accumulators

def update (s : Accumulators S) (g0 g1 g2 g3 : S → S) : Accumulators S :=
  ⟨g0 s.sum0, g1 s.sum1, g2 s.sum2, g3 s.sum3⟩

theorem foldl_update {g0 g1 g2 g3 : Nat → S → S} (is : List Nat) (s : Accumulators S) :
    is.foldl (fun s i => s.update (g0 i) (g1 i) (g2 i) (g3 i)) s =
      ⟨is.foldl (fun t i => g0 i t) s.sum0, is.foldl (fun t i => g1 i t) s.sum1,
        is.foldl (fun t i => g2 i t) s.sum2, is.foldl (fun t i => g3 i t) s.sum3⟩ := by
  induction is generalizing s with
  | nil => rfl
  | cons i is ih => exact ih _

end Accumulators

/-- `a[i]` and `b[i]`. -/
def readPair (a b : List R) (i : Nat) : Option (R × R) := do
  return (← a[i]?, ← b[i]?)

/-- An unaligned load of a register. -/
def load (lanes : Nat) (a : List R) (i : Nat) : Option (Fin lanes → R) :=
  if h : i + lanes ≤ a.length then some fun lane => a[i + lane.val] else none

def loadPair (lanes : Nat) (a b : List R) (i : Nat) : Option (Fin lanes → R × R) := do
  let x ← load lanes a i
  let y ← load lanes b i
  return fun lane => (x lane, y lane)

namespace KernelOps
variable (o : KernelOps (R × R) R)

def addRegister {lanes : Nat} (v w : Fin lanes → R) : Fin lanes → R :=
  fun lane => o.add (v lane) (w lane)

def fusedRegister {lanes : Nat} (x : Fin lanes → R × R) (sum : Fin lanes → R) : Fin lanes → R :=
  fun lane => o.fused (x lane) (sum lane)

def addTerm (x : R × R) (sum : R) : R := o.add sum (o.term x)

/-- One component after the other, onto a sum. -/
def tailLoop (a b : List R) (count i : Nat) (sum : R) : Option R := do
  let (_, sum) ← forLoop 1 count 1
    (fun i sum => do return o.addTerm (← readPair a b i) sum) i sum
  return sum

/-- A turn of the unrolled loop. -/
def scalarBlock (a b : List R) (i : Nat) (s : Accumulators R) : Option (Accumulators R) := do
  let x0 ← readPair a b (i + 0)
  let x1 ← readPair a b (i + 1)
  let x2 ← readPair a b (i + 2)
  let x3 ← readPair a b (i + 3)
  return s.update (o.addTerm x0) (o.addTerm x1) (o.addTerm x2) (o.addTerm x3)

def scalarLoops (a b : List R) (count : Nat) : Option R := do
  let kUnroll := 4
  let limit := count - count % kUnroll
  let (i, s) ← forLoop 1 limit kUnroll (o.scalarBlock a b) 0 ⟨o.zero, o.zero, o.zero, o.zero⟩
  let tail ← o.tailLoop a b count i o.zero
  return o.add (o.add (o.add s.sum0 s.sum1) (o.add s.sum2 s.sum3)) tail

/-- A turn over four registers. -/
def vectorBlock (lanes : Nat) (a b : List R) (i : Nat) (s : Accumulators (Fin lanes → R)) :
    Option (Accumulators (Fin lanes → R)) := do
  let x0 ← loadPair lanes a b (i + lanes * 0)
  let x1 ← loadPair lanes a b (i + lanes * 1)
  let x2 ← loadPair lanes a b (i + lanes * 2)
  let x3 ← loadPair lanes a b (i + lanes * 3)
  return s.update (o.fusedRegister x0) (o.fusedRegister x1) (o.fusedRegister x2)
    (o.fusedRegister x3)

/-- A turn over one register. -/
def vectorSingle (lanes : Nat) (a b : List R) (i : Nat) (sum0 : Fin lanes → R) :
    Option (Fin lanes → R) := do
  return o.fusedRegister (← loadPair lanes a b i) sum0

def setzero (lanes : Nat) : Fin lanes → R := fun _ => o.zero

def vectorLoops (lanes : Nat) (horizontalSum : (Fin lanes → R) → R) (a b : List R)
    (count : Nat) : Option R := do
  let kBlock := 4 * lanes
  let (i, s) ← forLoop kBlock count kBlock (o.vectorBlock lanes a b) 0
    ⟨o.setzero lanes, o.setzero lanes, o.setzero lanes, o.setzero lanes⟩
  let (i, sum0) ← forLoop lanes count lanes (o.vectorSingle lanes a b) i s.sum0
  o.tailLoop a b count i
    (horizontalSum (o.addRegister (o.addRegister sum0 s.sum1) (o.addRegister s.sum2 s.sum3)))

/-- `vaddvq_f32`. -/
def vaddvq (v : Fin 4 → R) : R := o.add (o.add (v 0) (v 1)) (o.add (v 2) (v 3))

end KernelOps

section Shuffles

/-- `_mm256_castps256_ps128` and `_mm256_extractf128_ps`. -/
def lowHalf (v : Fin 8 → R) : Fin 4 → R := ![v 0, v 1, v 2, v 3]

def highHalf (v : Fin 8 → R) : Fin 4 → R := ![v 4, v 5, v 6, v 7]

/-- `_mm_movehl_ps`: the upper half of `b` below the upper half of `a`. -/
def movehl (a b : Fin 4 → R) : Fin 4 → R := ![b 2, b 3, a 2, a 3]

/-- `_mm_shuffle_ps`: two lanes of `a` and two of `b`, each chosen by two bits. -/
def shuffle (a b : Fin 4 → R) (imm : Nat) : Fin 4 → R :=
  ![a (Fin.ofNat 4 imm), a (Fin.ofNat 4 (imm / 4)), b (Fin.ofNat 4 (imm / 16)),
    b (Fin.ofNat 4 (imm / 64))]

/-- `_mm_add_ss`: only the lowest lane. -/
def addSingle (o : KernelOps (R × R) R) (a b : Fin 4 → R) : Fin 4 → R :=
  ![o.add (a 0) (b 0), a 1, a 2, a 3]

/-- `horizontal_sum` of kernel_avx2.cpp. -/
def avx2HorizontalSum (o : KernelOps (R × R) R) (value : Fin 8 → R) : R :=
  let low := lowHalf value
  let high := highHalf value
  let sum := o.addRegister low high
  let sum := o.addRegister sum (movehl sum sum)
  let sum := addSingle o sum (shuffle sum sum 0x55)
  sum 0

theorem avx2HorizontalSum_eq (o : KernelOps (R × R) R) (v : Nat → R) :
    avx2HorizontalSum o (fun lane => v lane) = o.horizontalSum8 v := rfl

end Shuffles

def scalarL2Squared (o : FloatOps R) (a b : List R) (count : Nat) : Option R :=
  o.difference.scalarLoops a b count

def scalarDot (o : FloatOps R) (a b : List R) (count : Nat) : Option R :=
  o.product.scalarLoops a b count

def neonL2Squared (o : FloatOps R) (a b : List R) (count : Nat) : Option R :=
  o.difference.vectorLoops 4 o.difference.vaddvq a b count

def neonDot (o : FloatOps R) (a b : List R) (count : Nat) : Option R :=
  o.product.vectorLoops 4 o.product.vaddvq a b count

def avx2L2Squared (o : FloatOps R) (a b : List R) (count : Nat) : Option R :=
  o.difference.vectorLoops 8 (avx2HorizontalSum o.difference) a b count

def avx2Dot (o : FloatOps R) (a b : List R) (count : Nat) : Option R :=
  o.product.vectorLoops 8 (avx2HorizontalSum o.product) a b count

/-- The table of a kernel. -/
structure DistanceKernel (R : Type) where
  l2Squared : List R → List R → Nat → Option R
  dot : List R → List R → Nat → Option R
  normSquared : List R → Nat → Option R

def distanceKernel (o : FloatOps R) : Kernel → DistanceKernel R
  | .scalar => ⟨scalarL2Squared o, scalarDot o, fun values => scalarDot o values values⟩
  | .neon => ⟨neonL2Squared o, neonDot o, fun values => neonDot o values values⟩
  | .avx2 => ⟨avx2L2Squared o, avx2Dot o, fun values => avx2Dot o values values⟩

section Reads
variable {a b : List R} {count : Nat} {x : Nat → R × R}

/-- What the arrays hold below `count`; above it there may be nothing. -/
def Holds (a b : List R) (count : Nat) (x : Nat → R × R) : Prop :=
  ∀ i, i < count → a[i]? = some (x i).1 ∧ b[i]? = some (x i).2

theorem readPair_eq (h : Holds a b count x) {i : Nat} (hi : i < count) :
    readPair a b i = some (x i) := by
  obtain ⟨ha, hb⟩ := h i hi
  rw [readPair, ha, hb]
  rfl

theorem loadPair_eq (h : Holds a b count x) {lanes i : Nat} (hlanes : 0 < lanes)
    (hi : i + lanes ≤ count) :
    loadPair lanes a b i = some fun lane : Fin lanes => x (i + lane) := by
  have hload : ∀ (values : List R) (y : Nat → R), (∀ j, j < count → values[j]? = some (y j)) →
      load lanes values i = some fun lane : Fin lanes => y (i + lane) := by
    intro values y hy
    have hlast : i + lanes - 1 < values.length :=
      (List.getElem?_eq_some_iff.mp (hy (i + lanes - 1) (by omega))).1
    rw [load, dif_pos (by omega)]
    congr 1
    funext lane
    have hlane := lane.isLt
    exact (List.getElem?_eq_some_iff.mp (hy (i + lane) (by omega))).2
  rw [loadPair, hload a (fun j => (x j).1) fun j hj => (h j hj).1,
    hload b (fun j => (x j).2) fun j hj => (h j hj).2]
  rfl

end Reads

section Refinement
variable (o : KernelOps (R × R) R) {a b : List R} {count : Nat} {x : Nat → R × R}

theorem tailLoop_eq (h : Holds a b count x) {i : Nat} (hi : i ≤ count) (sum : R) :
    o.tailLoop a b count i sum = some (o.accumulate sum (List.range' i (count - i)) x) := by
  have hloop : forLoop 1 count 1 (fun i sum => do return o.addTerm (← readPair a b i) sum) i sum =
      some (i + 1 * (count - i),
        (List.range (count - i)).foldl (fun t k => o.addTerm (x (i + 1 * k)) t) sum) := by
    refine forLoop_eq_foldl (fun i sum => o.addTerm (x i) sum) _ (by decide) ?_ ?_ ?_
    · omega
    · omega
    · intro k t hk
      rw [readPair_eq h (show i + 1 * k < count by omega)]
      rfl
  rw [KernelOps.tailLoop, hloop, KernelOps.accumulate, List.range'_eq_map_range, List.foldl_map]
  simp only [Nat.one_mul]
  rfl

theorem scalarLoops_eq (h : Holds a b count x) :
    o.scalarLoops a b count = some (o.scalarSum count x) := by
  have hlimit : count - count % 4 = 4 * (count / 4) := by omega
  have hloop : forLoop 1 (4 * (count / 4)) 4 (o.scalarBlock a b) 0
      ⟨o.zero, o.zero, o.zero, o.zero⟩ = some (0 + 4 * (count / 4),
        (List.range (count / 4)).foldl (fun (s : Accumulators R) k => s.update (o.addTerm (x (0 + 4 * k + 0)))
          (o.addTerm (x (0 + 4 * k + 1))) (o.addTerm (x (0 + 4 * k + 2)))
          (o.addTerm (x (0 + 4 * k + 3)))) ⟨o.zero, o.zero, o.zero, o.zero⟩) := by
    refine forLoop_eq_foldl (fun i (s : Accumulators R) => s.update (o.addTerm (x (i + 0))) (o.addTerm (x (i + 1)))
      (o.addTerm (x (i + 2))) (o.addTerm (x (i + 3)))) _ (by decide) ?_ ?_ ?_
    · omega
    · omega
    · intro k s hk
      have hread : ∀ j, j < 4 → readPair a b (0 + 4 * k + j) = some (x (0 + 4 * k + j)) :=
        fun j hj => readPair_eq h (by omega)
      rw [KernelOps.scalarBlock, hread 0 (by decide), hread 1 (by decide), hread 2 (by decide),
        hread 3 (by decide)]
      rfl
  have htail := tailLoop_eq o h (show 4 * (count / 4) ≤ count by omega) o.zero
  simp only [KernelOps.scalarLoops, hlimit, hloop, Accumulators.foldl_update, Nat.zero_add, bind,
    Option.bind, htail, pure, KernelOps.scalarSum, KernelOps.accumulate, List.foldl_map,
    Nat.mul_div_cancel_left (count / 4) (show 0 < 4 by decide)]
  rfl

/-- A register is folded lane by lane. -/
theorem foldl_fusedRegister {lanes : Nat} (y : Nat → Fin lanes → R × R) (is : List Nat)
    (v : Fin lanes → R) :
    is.foldl (fun v i => o.fusedRegister (y i) v) v =
      fun lane => is.foldl (fun t i => o.fused (y i lane) t) (v lane) := by
  induction is generalizing v with
  | nil => rfl
  | cons i is ih => exact ih _

theorem forLoop_vectorBlock (h : Holds a b count x) {lanes : Nat} (hlanes : 0 < lanes)
    (s : Accumulators (Fin lanes → R)) :
    forLoop (4 * lanes) count (4 * lanes) (o.vectorBlock lanes a b) 0 s =
      some (0 + 4 * lanes * (count / (4 * lanes)), (List.range (count / (4 * lanes))).foldl
        (fun (s : Accumulators (Fin lanes → R)) k => s.update
          (o.fusedRegister fun lane => x (0 + 4 * lanes * k + lanes * 0 + lane))
          (o.fusedRegister fun lane => x (0 + 4 * lanes * k + lanes * 1 + lane))
          (o.fusedRegister fun lane => x (0 + 4 * lanes * k + lanes * 2 + lane))
          (o.fusedRegister fun lane => x (0 + 4 * lanes * k + lanes * 3 + lane))) s) := by
  have hin : ∀ k, k < count / (4 * lanes) → 4 * lanes * k + 4 * lanes ≤ count := by
    intro k hk
    have hle := Nat.mul_le_mul_left (4 * lanes) (Nat.succ_le_of_lt hk)
    rw [Nat.mul_succ] at hle
    exact hle.trans (Nat.mul_div_le count (4 * lanes))
  have hout := Nat.lt_mul_div_succ count (show 0 < 4 * lanes by omega)
  rw [Nat.mul_succ] at hout
  refine forLoop_eq_foldl (fun i (s : Accumulators (Fin lanes → R)) => s.update
    (o.fusedRegister fun lane => x (i + lanes * 0 + lane))
    (o.fusedRegister fun lane => x (i + lanes * 1 + lane))
    (o.fusedRegister fun lane => x (i + lanes * 2 + lane))
    (o.fusedRegister fun lane => x (i + lanes * 3 + lane))) _ (by omega) ?_ (by omega) ?_
  · intro k hk
    rw [Nat.zero_add]
    exact hin k hk
  · intro k s hk
    have hk := hin k hk
    rw [KernelOps.vectorBlock, loadPair_eq h hlanes (by omega), loadPair_eq h hlanes (by omega),
      loadPair_eq h hlanes (by omega), loadPair_eq h hlanes (by omega)]
    rfl

theorem forLoop_vectorSingle (h : Holds a b count x) {lanes : Nat} (hlanes : 0 < lanes) {i : Nat}
    (hi : i ≤ count) (sum0 : Fin lanes → R) :
    forLoop lanes count lanes (o.vectorSingle lanes a b) i sum0 =
      some (i + lanes * ((count - i) / lanes), (List.range ((count - i) / lanes)).foldl
        (fun v k => o.fusedRegister (fun lane => x (i + lanes * k + lane)) v) sum0) := by
  have hin : ∀ k, k < (count - i) / lanes → lanes * k + lanes ≤ count - i := by
    intro k hk
    have hle := Nat.mul_le_mul_left lanes (Nat.succ_le_of_lt hk)
    rw [Nat.mul_succ] at hle
    exact hle.trans (Nat.mul_div_le (count - i) lanes)
  have hout := Nat.lt_mul_div_succ (count - i) hlanes
  rw [Nat.mul_succ] at hout
  refine forLoop_eq_foldl (fun i v => o.fusedRegister (fun lane => x (i + lane)) v) _ hlanes ?_
    (by omega) ?_
  · intro k hk
    have hk := hin k hk
    omega
  · intro k v hk
    have hk := hin k hk
    rw [KernelOps.vectorSingle, loadPair_eq h hlanes (by omega)]
    rfl

theorem vectorLoops_eq (h : Holds a b count x) {lanes : Nat} (hlanes : 0 < lanes)
    {horizontalSum : (Fin lanes → R) → R} {horizontal : (Nat → R) → R}
    (hsum : ∀ v : Nat → R, horizontalSum (fun lane => v lane) = horizontal v) :
    o.vectorLoops lanes horizontalSum a b count = some (o.vectorSum lanes horizontal count x) := by
  have hi := Nat.mul_div_le count (4 * lanes)
  have hmore := Nat.mul_div_le (count - 4 * lanes * (count / (4 * lanes))) lanes
  have hsingle := forLoop_vectorSingle o h hlanes hi
  have htail := tailLoop_eq o h ((Nat.add_le_add_left hmore _).trans_eq (Nat.add_sub_cancel' hi))
  rw [KernelOps.vectorLoops, forLoop_vectorBlock o h hlanes, Accumulators.foldl_update]
  simp only [foldl_fusedRegister, Nat.zero_add, bind, Option.bind, hsingle, htail]
  simp only [KernelOps.vectorSum, KernelOps.accumulateLane, List.foldl_map, ← hsum]
  rfl

end Refinement

section Tables
variable (o : FloatOps R) (kernel : Kernel) {a b : List R} {count : Nat} {x : Nat → R × R}

/-- Each function of a table adds up its terms in the order of its kernel, whatever the
arithmetic. -/
theorem distanceKernel_l2Squared (h : Holds a b count x) :
    (distanceKernel o kernel).l2Squared a b count = some (kernel.sum o.difference count x) := by
  cases kernel with
  | scalar => exact scalarLoops_eq _ h
  | neon => exact vectorLoops_eq _ h (by decide) fun _ => rfl
  | avx2 => exact vectorLoops_eq _ h (by decide) (avx2HorizontalSum_eq _)

theorem distanceKernel_dot (h : Holds a b count x) :
    (distanceKernel o kernel).dot a b count = some (kernel.sum o.product count x) := by
  cases kernel with
  | scalar => exact scalarLoops_eq _ h
  | neon => exact vectorLoops_eq _ h (by decide) fun _ => rfl
  | avx2 => exact vectorLoops_eq _ h (by decide) (avx2HorizontalSum_eq _)

theorem distanceKernel_normSquared (values : List R) (count : Nat) :
    (distanceKernel o kernel).normSquared values count =
      (distanceKernel o kernel).dot values values count := by
  cases kernel <;> rfl

end Tables

section Floats

/-- Floats whose sums and products are rounded as the distance functions round them. -/
def extendedOps : FloatOps Extended where
  zero := .finite 0
  add := Extended.add overflowThreshold
  sub := Extended.sub overflowThreshold
  mul := Extended.mul overflowThreshold
  fma := Extended.fma overflowThreshold

theorem holds_pairAt {a b : FloatVector} (h : a.length ≤ b.length) :
    Holds (a.map toExtended) (b.map toExtended) a.length (pairAt a b) := by
  intro i hi
  have hb : i < b.length := by omega
  simp [pairAt, hi, hb]

/-- The loops compute the sums the rank keys are made of. -/
theorem distanceKernel_extendedOps (kernel : Kernel) {a b : FloatVector}
    (h : a.length ≤ b.length) :
    (distanceKernel extendedOps kernel).l2Squared (a.map toExtended) (b.map toExtended) a.length =
        some (kernel.l2Squared a b) ∧
      (distanceKernel extendedOps kernel).dot (a.map toExtended) (b.map toExtended) a.length =
        some (kernel.dot a b) :=
  ⟨distanceKernel_l2Squared extendedOps kernel (holds_pairAt h),
    distanceKernel_dot extendedOps kernel (holds_pairAt h)⟩

end Floats

section Ring
variable (R) [CommRing R]

/-- The operations of a ring in the place of those of floats. -/
def ringOps : FloatOps R where
  zero := 0
  add := (· + ·)
  sub := (· - ·)
  mul := (· * ·)
  fma a b c := a * b + c

/-- Every kernel computes the plain sums and reads nothing at or above `count`, where the
arrays end. -/
theorem distanceKernel_ringOps (kernel : Kernel) (a b : List R) (count : Nat)
    (ha : a.length = count) (hb : b.length = count) :
    (distanceKernel (ringOps R) kernel).l2Squared a b count =
        some (∑ i ∈ Finset.range count, (a.getD i 0 - b.getD i 0) ^ 2) ∧
      (distanceKernel (ringOps R) kernel).dot a b count =
        some (∑ i ∈ Finset.range count, a.getD i 0 * b.getD i 0) ∧
      (distanceKernel (ringOps R) kernel).normSquared a count =
        some (∑ i ∈ Finset.range count, a.getD i 0 ^ 2) := by
  have hholds : ∀ c d : List R, c.length = count → d.length = count →
      Holds c d count fun i => (c.getD i 0, d.getD i 0) := by
    intro c d hc hd i hi
    simp [hc, hd, hi]
  have hdifference : (ringOps R).difference = exactOps fun x => (x.1 - x.2) * (x.1 - x.2) := rfl
  have hproduct : (ringOps R).product = exactOps fun x => x.1 * x.2 := rfl
  refine ⟨?_, ?_, ?_⟩
  · rw [distanceKernel_l2Squared _ _ (hholds a b ha hb), hdifference, Kernel.sum_exactOps]
    simp only [pow_two]
  · rw [distanceKernel_dot _ _ (hholds a b ha hb), hproduct, Kernel.sum_exactOps]
  · rw [distanceKernel_normSquared, distanceKernel_dot _ _ (hholds a a ha ha), hproduct,
      Kernel.sum_exactOps]
    simp only [pow_two]

/-- A block of four registers, one register more, and three components. -/
theorem distanceKernel_ringOps_block :
    (distanceKernel (ringOps ℤ) .avx2).l2Squared (List.replicate 43 5) (List.replicate 43 3) 43 =
      some 172 := by
  have h := (distanceKernel_ringOps ℤ .avx2 (List.replicate 43 5) (List.replicate 43 3) 43
    (by simp) (by simp)).1
  rw [h]
  decide +kernel

end Ring

end VectorDb.Distance
