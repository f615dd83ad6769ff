import Mathlib

/-!
Division of bit strings by a polynomial over the field with two elements, in a register
whose bit 0 is the leading coefficient: one bit at a time, and what the register means.
-/
set_option autoImplicit false

namespace VectorDb.Lib

open Polynomial

variable {w : Nat} (p : BitVec w)

/-- The next register, without a new bit: where a leading 1 is shifted out, the divisor
is subtracted. -/
def shiftOut (x : BitVec w) : BitVec w := if x.getLsbD 0 then (x >>> 1) ^^^ p else x >>> 1

/-- One bit of the dividend enters at the leading coefficient. -/
def divideBit (x : BitVec w) (bit : Bool) : BitVec w :=
  shiftOut p (if bit then x ^^^ 1#w else x)

def divideBits (x : BitVec w) (bits : List Bool) : BitVec w := bits.foldl (divideBit p) x

section Linear

theorem shiftOut_xor (x y : BitVec w) : shiftOut p (x ^^^ y) = shiftOut p x ^^^ shiftOut p y := by
  apply BitVec.eq_of_getLsbD_eq
  intro i hi
  unfold shiftOut
  cases hx : x.getLsbD 0 <;> cases hy : y.getLsbD 0 <;>
    simp [hx, hy, BitVec.ushiftRight_xor_distrib] <;>
    cases x.getLsbD (1 + i) <;> cases y.getLsbD (1 + i) <;> cases p.getLsbD i <;> rfl

theorem shiftOut_zero : shiftOut p 0#w = 0#w := by simp [shiftOut]

/-- A divisor with a constant term makes every step reversible. -/
theorem shiftOut_injective (hp : p.msb = true) : Function.Injective (shiftOut p) := by
  have hkernel : ∀ x : BitVec w, shiftOut p x = 0#w → x = 0#w := by
    intro x hx
    have hmsb : (x >>> 1).getLsbD (w - 1) = false := by
      rw [BitVec.getLsbD_ushiftRight]
      exact BitVec.getLsbD_of_ge x _ (by omega)
    rw [BitVec.msb_eq_getLsbD_last] at hp
    unfold shiftOut at hx
    cases h0 : x.getLsbD 0 with
    | true =>
      rw [h0, if_pos rfl] at hx
      have hlast := congrArg (·.getLsbD (w - 1)) hx
      simp only [BitVec.getLsbD_xor, hmsb, hp, BitVec.getLsbD_zero] at hlast
      cases hlast
    | false =>
      rw [h0, if_neg (by decide)] at hx
      apply BitVec.eq_of_getLsbD_eq
      intro i hi
      cases i with
      | zero => rw [h0, BitVec.getLsbD_zero]
      | succ i =>
        have hbit := congrArg (·.getLsbD i) hx
        simp only [BitVec.getLsbD_ushiftRight, BitVec.getLsbD_zero] at hbit
        rw [Nat.add_comm, hbit, BitVec.getLsbD_zero]
  intro x y hxy
  have hzero := hkernel (x ^^^ y) (by rw [shiftOut_xor, hxy, BitVec.xor_self])
  exact BitVec.xor_eq_zero_iff.mp hzero

theorem shiftOut_of_even {x : BitVec w} (h : x.getLsbD 0 = false) : shiftOut p x = x >>> 1 := by
  rw [shiftOut, h, if_neg (by decide)]

theorem iterate_shiftOut_xor (n : Nat) (x y : BitVec w) :
    (shiftOut p)^[n] (x ^^^ y) = (shiftOut p)^[n] x ^^^ (shiftOut p)^[n] y := by
  induction n generalizing x y with
  | zero => rfl
  | succ n ih => rw [Function.iterate_succ_apply, shiftOut_xor, ih]; rfl

/-- As long as no 1 is shifted out, the register only moves. -/
theorem iterate_shiftOut_of_low {n : Nat} {x : BitVec w} (h : ∀ i, i < n → x.getLsbD i = false) :
    (shiftOut p)^[n] x = x >>> n := by
  induction n with
  | zero => simp
  | succ n ih =>
    have hlow : (x >>> n).getLsbD 0 = false := by
      rw [BitVec.getLsbD_ushiftRight]
      exact h n (by omega)
    rw [Function.iterate_succ_apply', ih fun i hi => h i (by omega), shiftOut_of_even p hlow,
      BitVec.shiftRight_add]

/-- Bits that enter one by one may as well stand in the register from the beginning. -/
theorem divideBits_register {n : Nat} {d : BitVec w} (x : BitVec w)
    (h : ∀ i, n ≤ i → d.getLsbD i = false) :
    divideBits p x ((List.range n).map d.getLsbD) = (shiftOut p)^[n] (x ^^^ d) := by
  induction n generalizing x d with
  | zero =>
    have hzero : d = 0#w := by
      apply BitVec.eq_of_getLsbD_eq
      intro i _
      rw [h i (Nat.zero_le i), BitVec.getLsbD_zero]
    simp [divideBits, hzero]
  | succ n ih =>
    have hrest : ∀ i, n ≤ i → (d >>> 1).getLsbD i = false := by
      intro i hi
      rw [BitVec.getLsbD_ushiftRight]
      exact h (1 + i) (by omega)
    have hbits : (List.range n).map (d.getLsbD ∘ Nat.succ) = (List.range n).map (d >>> 1).getLsbD := by
      refine List.map_congr_left fun i _ => ?_
      rw [BitVec.getLsbD_ushiftRight, Nat.add_comm]
      rfl
    have hstep : shiftOut p (x ^^^ d) = divideBit p x (d.getLsbD 0) ^^^ (d >>> 1) := by
      unfold divideBit
      cases hd : d.getLsbD 0 with
      | false =>
        rw [if_neg (by decide), shiftOut_xor, shiftOut_of_even p hd]
      | true =>
        have hone : (1#w).getLsbD 0 = true := by
          by_contra hw
          have hzero : w = 0 := by simpa using hw
          rw [BitVec.getLsbD_of_ge d 0 (by omega)] at hd
          cases hd
        have heven : (1#w ^^^ d).getLsbD 0 = false := by
          rw [BitVec.getLsbD_xor, hone, hd]
          rfl
        have hdown : (1#w ^^^ d) >>> 1 = d >>> 1 := by
          apply BitVec.eq_of_getLsbD_eq
          intro i _
          simp [BitVec.getLsbD_one]
        have hsplit : x ^^^ d = x ^^^ 1#w ^^^ (1#w ^^^ d) := by
          rw [BitVec.xor_assoc, ← BitVec.xor_assoc (1#w), BitVec.xor_self, BitVec.zero_xor]
        rw [hsplit, shiftOut_xor, shiftOut_of_even p heven, hdown, if_pos rfl]
    rw [List.range_succ_eq_map, List.map_cons, List.map_map, hbits, Function.iterate_succ_apply,
      hstep, ← ih _ hrest]
    rfl

theorem divideBits_append (x : BitVec w) (first second : List Bool) :
    divideBits p x (first ++ second) = divideBits p (divideBits p x first) second :=
  List.foldl_append

/-- Different registers stay different, whatever bits follow. -/
theorem divideBits_injective (hp : p.msb = true) (bits : List Bool) :
    Function.Injective fun x => divideBits p x bits := by
  have hbit : ∀ bit, Function.Injective fun x => divideBit p x bit := by
    intro bit x y hxy
    have hin := shiftOut_injective p hp hxy
    cases bit with
    | false => exact hin
    | true => exact (BitVec.xor_left_inj _).mp hin
  induction bits with
  | nil => exact Function.injective_id
  | cons bit bits ih => exact ih.comp (hbit bit)

end Linear

section Remainder

/-- The polynomial in a register, highest coefficient first. -/
noncomputable def registerPoly (x : BitVec w) : (ZMod 2)[X] :=
  ∑ i ∈ Finset.range w, if x.getLsbD i then X ^ (w - 1 - i) else 0

/-- The polynomial of a bit string, highest coefficient first. -/
noncomputable def bitsPoly : List Bool → (ZMod 2)[X]
  | [] => 0
  | bit :: bits => (if bit then X ^ bits.length else 0) + bitsPoly bits

/-- The divisor, whose leading coefficient is not in the register. -/
noncomputable def divisorPoly : (ZMod 2)[X] := X ^ w + registerPoly p

theorem add_self_eq_zero' (f : (ZMod 2)[X]) : f + f = 0 := CharTwo.add_self_eq_zero f

theorem registerPoly_xor (x y : BitVec w) :
    registerPoly (x ^^^ y) = registerPoly x + registerPoly y := by
  rw [registerPoly, registerPoly, registerPoly, ← Finset.sum_add_distrib]
  refine Finset.sum_congr rfl fun i _ => ?_
  rw [BitVec.getLsbD_xor]
  cases x.getLsbD i <;> cases y.getLsbD i <;> simp [add_self_eq_zero']

theorem degree_registerPoly_lt (x : BitVec w) : (registerPoly x).degree < w := by
  refine lt_of_le_of_lt (degree_sum_le _ _) ((Finset.sup_lt_iff (WithBot.bot_lt_coe w)).mpr ?_)
  intro i hi
  have hlt := Finset.mem_range.mp hi
  split
  · rw [degree_X_pow]
    exact Nat.cast_lt.mpr (by omega)
  · rw [degree_zero]
    exact WithBot.bot_lt_coe w

theorem monic_divisorPoly : (divisorPoly p).Monic := monic_X_pow_add (degree_registerPoly_lt p)

theorem degree_divisorPoly : (divisorPoly p).degree = w := by
  rw [divisorPoly, degree_add_eq_left_of_degree_lt, degree_X_pow]
  rw [degree_X_pow]
  exact degree_registerPoly_lt p

/-- Shifting multiplies by `X`, up to the divisor. -/
theorem registerPoly_shiftOut (x : BitVec w) :
    registerPoly (shiftOut p x) + (if x.getLsbD 0 then divisorPoly p else 0) =
      X * registerPoly x := by
  have hshift : registerPoly (x >>> 1) + (if x.getLsbD 0 then X ^ w else 0) =
      X * registerPoly x := by
    cases w with
    | zero => simp [registerPoly, BitVec.getLsbD_of_ge]
    | succ w =>
      have hlast : (x >>> 1).getLsbD w = false := by
        rw [BitVec.getLsbD_ushiftRight]
        exact BitVec.getLsbD_of_ge x _ (by omega)
      have hterm : ∀ i ∈ Finset.range w,
          (if (x >>> 1).getLsbD i then X ^ (w + 1 - 1 - i) else 0 : (ZMod 2)[X]) =
            X * if x.getLsbD (i + 1) then X ^ (w + 1 - 1 - (i + 1)) else 0 := by
        intro i hi
        have hlt := Finset.mem_range.mp hi
        rw [BitVec.getLsbD_ushiftRight, Nat.add_comm 1 i, mul_ite, mul_zero, ← pow_succ',
          show w + 1 - 1 - (i + 1) + 1 = w + 1 - 1 - i by omega]
      rw [registerPoly, registerPoly, Finset.sum_range_succ, Finset.sum_range_succ', hlast,
        Finset.sum_congr rfl hterm, mul_add, Finset.mul_sum, mul_ite, mul_zero, ← pow_succ']
      simp
  unfold shiftOut
  cases h0 : x.getLsbD 0 with
  | false => simpa [h0] using hshift
  | true =>
    rw [h0] at hshift
    simp only [if_true] at hshift ⊢
    rw [registerPoly_xor, divisorPoly, ← hshift]
    have hp := add_self_eq_zero' (registerPoly p)
    linear_combination hp

theorem registerPoly_one (hw : 0 < w) : registerPoly (1#w) = X ^ (w - 1) := by
  have hterm : ∀ i ∈ Finset.range w, (if (1#w).getLsbD i then X ^ (w - 1 - i) else 0 : (ZMod 2)[X]) =
      if i = 0 then X ^ (w - 1) else 0 := by
    intro i hi
    have hlt := Finset.mem_range.mp hi
    by_cases h0 : i = 0
    · simp [h0, hw]
    · simp [h0, BitVec.getLsbD_one]
  rw [registerPoly, Finset.sum_congr rfl hterm, Finset.sum_ite_eq']
  simp [hw.ne']

theorem registerPoly_divideBit (hw : 0 < w) (x : BitVec w) (bit : Bool) :
    divisorPoly p ∣ X * registerPoly x + (if bit then X ^ w else 0) -
      registerPoly (divideBit p x bit) := by
  have hdvd : ∀ y : BitVec w, divisorPoly p ∣ X * registerPoly y - registerPoly (shiftOut p y) := by
    intro y
    rw [← registerPoly_shiftOut, add_sub_cancel_left]
    split
    · exact dvd_rfl
    · exact dvd_zero _
  cases bit with
  | false => simpa [divideBit] using hdvd x
  | true =>
    have hone := hdvd (x ^^^ 1#w)
    rw [registerPoly_xor, registerPoly_one hw, mul_add, ← pow_succ', Nat.sub_add_cancel hw] at hone
    simpa [divideBit] using hone

/-- The register holds the remainder of the dividend: of the bits moved up by the width,
with the register it began with moved up by their number. -/
theorem registerPoly_divideBits (hw : 0 < w) (x : BitVec w) (bits : List Bool) :
    registerPoly (divideBits p x bits) =
      (X ^ bits.length * registerPoly x + X ^ w * bitsPoly bits) %ₘ divisorPoly p := by
  have hdvd : divisorPoly p ∣ X ^ bits.length * registerPoly x + X ^ w * bitsPoly bits -
      registerPoly (divideBits p x bits) := by
    induction bits generalizing x with
    | nil => simp [divideBits, bitsPoly]
    | cons bit bits ih =>
      have hrest := ih (divideBit p x bit)
      have hfirst := (registerPoly_divideBit p hw x bit).mul_left (X ^ bits.length)
      convert dvd_add hrest hfirst using 1
      rw [bitsPoly, List.length_cons]
      simp only [divideBits, List.foldl_cons]
      cases bit <;> simp <;> ring
  have hself : registerPoly (divideBits p x bits) %ₘ divisorPoly p =
      registerPoly (divideBits p x bits) := by
    refine (modByMonic_eq_self_iff (monic_divisorPoly p)).mpr ?_
    rw [degree_divisorPoly]
    exact degree_registerPoly_lt _
  rw [← hself]
  exact (modByMonic_eq_of_dvd_sub (monic_divisorPoly p) hdvd).symm

end Remainder

end VectorDb.Lib
