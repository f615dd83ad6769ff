import Mathlib

/-!
The distance kernels of src/distance: four accumulators of one lane, or of several. Each adds
up one term for each pair of components. Where the source multiplies and then adds, both round:
that a compiler may contract the two is not modelled.
-/
set_option autoImplicit false

namespace VectorDb.Distance

/-- What a kernel computes with: the term of a pair, and the term added in one step. -/
structure KernelOps (X S : Type) where
  zero : S
  add : S → S → S
  term : X → S
  fused : X → S → S

namespace KernelOps
variable {X S : Type} (o : KernelOps X S)

/-- `sum += term`, over these components. -/
def accumulate (s : S) (is : List Nat) (x : Nat → X) : S :=
  is.foldl (fun s i => o.add s (o.term (x i))) s

/-- The scalar kernel. -/
def scalarSum (count : Nat) (x : Nat → X) : S :=
  let limit := count - count % 4
  let sum (lane : Nat) := o.accumulate o.zero ((List.range (limit / 4)).map fun k => 4 * k + lane) x
  let tail := o.accumulate o.zero (List.range' limit (count - limit)) x
  o.add (o.add (o.add (sum 0) (sum 1)) (o.add (sum 2) (sum 3))) tail

/-- A lane of a vector accumulator, whose registers are loaded from these components on. -/
def accumulateLane (lane : Nat) (s : S) (is : List Nat) (x : Nat → X) : S :=
  is.foldl (fun s i => o.fused (x (i + lane)) s) s

/-- The vector kernels: blocks of four registers, then single registers, then components. -/
def vectorSum (lanes : Nat) (horizontalSum : (Nat → S) → S) (count : Nat) (x : Nat → X) : S :=
  let block := 4 * lanes
  let blocks := count / block
  let sum (j lane : Nat) :=
    o.accumulateLane lane o.zero ((List.range blocks).map fun k => block * k + lanes * j) x
  let i := block * blocks
  let more := (count - i) / lanes
  let sum0 (lane : Nat) :=
    o.accumulateLane lane (sum 0 lane) ((List.range more).map fun k => i + lanes * k) x
  let total := horizontalSum fun lane =>
    o.add (o.add (sum0 lane) (sum 1 lane)) (o.add (sum 2 lane) (sum 3 lane))
  let i := i + lanes * more
  o.accumulate total (List.range' i (count - i)) x

/-- `vaddvq_f32`, pair by pair. -/
def horizontalSum4 (v : Nat → S) : S := o.add (o.add (v 0) (v 1)) (o.add (v 2) (v 3))

/-- The upper half onto the lower one, three times. -/
def horizontalSum8 (v : Nat → S) : S :=
  let sum (lane : Nat) := o.add (v lane) (v (lane + 4))
  let sum (lane : Nat) := o.add (sum lane) (sum (lane + 2))
  o.add (sum 0) (sum 1)

end KernelOps

/-- The kernels a build may choose from. -/
inductive Kernel where
  | scalar | neon | avx2
  deriving DecidableEq, Repr

/-- The sum of the terms in the order of the kernel. -/
def Kernel.sum {X S : Type} (kernel : Kernel) (o : KernelOps X S) (count : Nat) (x : Nat → X) :
    S :=
  match kernel with
  | .scalar => o.scalarSum count x
  | .neon => o.vectorSum 4 o.horizontalSum4 count x
  | .avx2 => o.vectorSum 8 o.horizontalSum8 count x

section Related
variable {X S Y T : Type} {o : KernelOps X S} {o' : KernelOps Y T}

/-- Two ways to compute that keep a relation step by step. -/
structure Related (o : KernelOps X S) (o' : KernelOps Y T) (RX : X → Y → Prop)
    (R : S → T → Prop) : Prop where
  zero : R o.zero o'.zero
  add : ∀ s t s' t', R s s' → R t t' → R (o.add s t) (o'.add s' t')
  term : ∀ x y, RX x y → R (o.term x) (o'.term y)
  fused : ∀ x y s t, RX x y → R s t → R (o.fused x s) (o'.fused y t)

variable {RX : X → Y → Prop} {R : S → T → Prop} {x : Nat → X} {y : Nat → Y}

theorem Related.accumulate (h : Related o o' RX R) (hx : ∀ i, RX (x i) (y i)) {s : S} {t : T}
    (hs : R s t) (is : List Nat) : R (o.accumulate s is x) (o'.accumulate t is y) := by
  induction is generalizing s t with
  | nil => exact hs
  | cons i is ih => exact ih (h.add _ _ _ _ hs (h.term _ _ (hx i)))

theorem Related.accumulateLane (h : Related o o' RX R) (hx : ∀ i, RX (x i) (y i)) (lane : Nat)
    {s : S} {t : T} (hs : R s t) (is : List Nat) :
    R (o.accumulateLane lane s is x) (o'.accumulateLane lane t is y) := by
  induction is generalizing s t with
  | nil => exact hs
  | cons i is ih => exact ih (h.fused _ _ _ _ (hx (i + lane)) hs)

theorem Related.vectorSum (h : Related o o' RX R) (hx : ∀ i, RX (x i) (y i)) (lanes count : Nat)
    {horizontal : (Nat → S) → S} {horizontal' : (Nat → T) → T}
    (hsum : ∀ v w, (∀ lane, R (v lane) (w lane)) → R (horizontal v) (horizontal' w)) :
    R (o.vectorSum lanes horizontal count x) (o'.vectorSum lanes horizontal' count y) := by
  refine h.accumulate hx (hsum _ _ fun lane => ?_) _
  refine h.add _ _ _ _ (h.add _ _ _ _ ?_ ?_) (h.add _ _ _ _ ?_ ?_)
  · exact h.accumulateLane hx lane (h.accumulateLane hx lane h.zero _) _
  · exact h.accumulateLane hx lane h.zero _
  · exact h.accumulateLane hx lane h.zero _
  · exact h.accumulateLane hx lane h.zero _

/-- What every step of a kernel keeps, the kernel keeps. -/
theorem Related.sum (h : Related o o' RX R) (hx : ∀ i, RX (x i) (y i)) (kernel : Kernel)
    (count : Nat) : R (kernel.sum o count x) (kernel.sum o' count y) := by
  cases kernel with
  | scalar =>
    refine h.add _ _ _ _ (h.add _ _ _ _ (h.add _ _ _ _ ?_ ?_) (h.add _ _ _ _ ?_ ?_)) ?_
    all_goals exact h.accumulate hx h.zero _
  | neon =>
    refine h.vectorSum hx 4 count fun v w hv => ?_
    exact h.add _ _ _ _ (h.add _ _ _ _ (hv 0) (hv 1)) (h.add _ _ _ _ (hv 2) (hv 3))
  | avx2 =>
    refine h.vectorSum hx 8 count fun v w hv => ?_
    have hpair : ∀ lane, R (o.add (v lane) (v (lane + 4))) (o'.add (w lane) (w (lane + 4))) :=
      fun lane => h.add _ _ _ _ (hv lane) (hv (lane + 4))
    exact h.add _ _ _ _ (h.add _ _ _ _ (hpair 0) (hpair 2)) (h.add _ _ _ _ (hpair 1) (hpair 3))

end Related

section Exact
variable {X M : Type} [AddCommMonoid M] (f : X → M)

/-- Sums that are exact. -/
def exactOps : KernelOps X M := ⟨0, (· + ·), f, fun x s => f x + s⟩

@[simp] theorem exactOps_zero : (exactOps f).zero = 0 := rfl

@[simp] theorem exactOps_add (s t : M) : (exactOps f).add s t = s + t := rfl

theorem accumulate_exactOps (s : M) (is : List Nat) (x : Nat → X) :
    (exactOps f).accumulate s is x = s + (is.map fun i => f (x i)).sum := by
  induction is generalizing s with
  | nil => simp [KernelOps.accumulate]
  | cons i is ih =>
    rw [List.map_cons, List.sum_cons, ← add_assoc]
    exact ih (s + f (x i))

theorem accumulateLane_exactOps (lane : Nat) (s : M) (is : List Nat) (x : Nat → X) :
    (exactOps f).accumulateLane lane s is x = s + (is.map fun i => f (x (i + lane))).sum := by
  induction is generalizing s with
  | nil => simp [KernelOps.accumulateLane]
  | cons i is ih =>
    rw [List.map_cons, List.sum_cons, ← add_assoc, add_comm s]
    exact ih (f (x (i + lane)) + s)

theorem sum_map_range (n : Nat) (g : Nat → M) :
    ((List.range n).map g).sum = ∑ k ∈ Finset.range n, g k := by
  induction n with
  | zero => simp
  | succ n ih => simp [List.range_succ, Finset.sum_range_succ, ih]

theorem sum_map_range' (start n : Nat) (g : Nat → M) :
    ((List.range' start n).map g).sum = ∑ k ∈ Finset.range n, g (start + k) := by
  rw [List.range'_eq_map_range, List.map_map, sum_map_range]
  rfl

/-- A sum of blocks of the same width. -/
theorem sum_blocks (width n : Nat) (g : Nat → M) :
    ∑ k ∈ Finset.range n, ∑ j ∈ Finset.range width, g (width * k + j) =
      ∑ i ∈ Finset.range (width * n), g i := by
  induction n with
  | zero => simp
  | succ n ih => rw [Finset.sum_range_succ, ih, Nat.mul_succ, Finset.sum_range_add]

theorem scalarSum_exactOps (count : Nat) (x : Nat → X) :
    (exactOps f).scalarSum count x = ∑ i ∈ Finset.range count, f (x i) := by
  have hlimit : count - count % 4 = 4 * (count / 4) := by omega
  have hblocks := sum_blocks 4 (count / 4) fun i => f (x i)
  simp only [Finset.sum_range_succ, Finset.sum_range_zero, zero_add, Finset.sum_add_distrib]
    at hblocks
  have htail : 4 * (count / 4) + (count - 4 * (count / 4)) = count := by omega
  calc (exactOps f).scalarSum count x
      = (∑ i ∈ Finset.range (4 * (count / 4)), f (x i)) +
          ∑ k ∈ Finset.range (count - 4 * (count / 4)), f (x (4 * (count / 4) + k)) := by
        rw [← hblocks]
        simp only [KernelOps.scalarSum, accumulate_exactOps, List.map_map, hlimit,
          Nat.mul_div_cancel_left (count / 4) (show 0 < 4 by decide), sum_map_range,
          sum_map_range', exactOps_zero, exactOps_add, Function.comp, zero_add, add_assoc]
    _ = ∑ i ∈ Finset.range count, f (x i) := by rw [← Finset.sum_range_add, htail]

/-- Four registers of a block, lane by lane. -/
theorem sum_registers (lanes blocks : Nat) (g : Nat → M) :
    ∑ lane ∈ Finset.range lanes, ∑ j ∈ Finset.range 4, ∑ k ∈ Finset.range blocks,
        g (4 * lanes * k + lanes * j + lane) = ∑ i ∈ Finset.range (4 * lanes * blocks), g i := by
  calc ∑ lane ∈ Finset.range lanes, ∑ j ∈ Finset.range 4, ∑ k ∈ Finset.range blocks,
        g (4 * lanes * k + lanes * j + lane)
      = ∑ k ∈ Finset.range blocks, ∑ j ∈ Finset.range 4, ∑ lane ∈ Finset.range lanes,
          g (4 * lanes * k + lanes * j + lane) := by
        rw [Finset.sum_comm, Finset.sum_comm (s := Finset.range blocks)]
        exact Finset.sum_congr rfl fun j _ => Finset.sum_comm
    _ = ∑ k ∈ Finset.range blocks, ∑ m ∈ Finset.range (4 * lanes), g (4 * lanes * k + m) := by
        refine Finset.sum_congr rfl fun k _ => ?_
        have hblock := sum_blocks lanes 4 fun m => g (4 * lanes * k + m)
        simpa only [← add_assoc, Nat.mul_comm lanes 4] using hblock
    _ = ∑ i ∈ Finset.range (4 * lanes * blocks), g i := sum_blocks (4 * lanes) blocks g

theorem vectorSum_exactOps {lanes : Nat} {horizontal : (Nat → M) → M}
    (hsum : ∀ v, horizontal v = ∑ lane ∈ Finset.range lanes, v lane) (count : Nat)
    (x : Nat → X) :
    (exactOps f).vectorSum lanes horizontal count x = ∑ i ∈ Finset.range count, f (x i) := by
  let blocks := count / (4 * lanes)
  let done := 4 * lanes * blocks
  let more := (count - done) / lanes
  have hdone : done ≤ count := Nat.mul_div_le count (4 * lanes)
  have hmore : lanes * more ≤ count - done := Nat.mul_div_le (count - done) lanes
  have hregisters := sum_registers lanes blocks fun i => f (x i)
  have hsingle : ∑ lane ∈ Finset.range lanes, ∑ k ∈ Finset.range more,
      f (x (done + lanes * k + lane)) = ∑ m ∈ Finset.range (lanes * more), f (x (done + m)) := by
    rw [Finset.sum_comm, ← sum_blocks lanes more fun m => f (x (done + m))]
    simp only [add_assoc]
  have hcount : done + lanes * more + (count - (done + lanes * more)) = count := by omega
  calc (exactOps f).vectorSum lanes horizontal count x
      = (∑ i ∈ Finset.range done, f (x i)) + (∑ m ∈ Finset.range (lanes * more), f (x (done + m))) +
          ∑ k ∈ Finset.range (count - (done + lanes * more)), f (x (done + lanes * more + k)) := by
        rw [← hregisters, ← hsingle, ← Finset.sum_add_distrib]
        simp only [KernelOps.vectorSum, accumulate_exactOps, accumulateLane_exactOps, hsum,
          List.map_map, sum_map_range, sum_map_range', exactOps_zero, exactOps_add, Function.comp,
          zero_add, Finset.sum_range_succ, Finset.sum_range_zero]
        refine congrArg (· + _) (Finset.sum_congr rfl fun lane _ => ?_)
        abel
    _ = ∑ i ∈ Finset.range count, f (x i) := by
        rw [← Finset.sum_range_add, ← Finset.sum_range_add, hcount]

/-- With exact sums every kernel gives the sum of the terms. -/
theorem Kernel.sum_exactOps (kernel : Kernel) (count : Nat) (x : Nat → X) :
    kernel.sum (exactOps f) count x = ∑ i ∈ Finset.range count, f (x i) := by
  cases kernel with
  | scalar => exact scalarSum_exactOps f count x
  | neon =>
    refine vectorSum_exactOps f (fun v => ?_) count x
    simp [KernelOps.horizontalSum4, exactOps, Finset.sum_range_succ, add_assoc]
  | avx2 =>
    refine vectorSum_exactOps f (fun v => ?_) count x
    simp only [KernelOps.horizontalSum8, exactOps, Finset.sum_range_succ, Finset.sum_range_zero]
    abel

end Exact

end VectorDb.Distance
