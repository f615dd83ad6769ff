import Mathlib

/-!
Rational arithmetic with infinities and NaN, in which a result beyond a limit becomes an
infinity, and the sums of which it gives NaN.
-/
set_option autoImplicit false

namespace VectorDb.Lib

inductive Extended where
  | finite (q : ℚ)
  | infinite (negative : Bool)
  | nan
  deriving DecidableEq, Repr

namespace Extended

/-- The sum before it is rounded. -/
def plus : Extended → Extended → Extended
  | finite x, finite y => finite (x + y)
  | finite _, infinite t => infinite t
  | infinite s, finite _ => infinite s
  | infinite s, infinite t => if s = t then infinite s else nan
  | _, _ => nan

/-- The product before it is rounded. -/
def product : Extended → Extended → Extended
  | finite x, finite y => finite (x * y)
  | finite x, infinite t => if x = 0 then nan else infinite (decide (x < 0) != t)
  | infinite s, finite y => if y = 0 then nan else infinite (s != decide (y < 0))
  | infinite s, infinite t => infinite (s != t)
  | _, _ => nan

def neg : Extended → Extended
  | finite x => finite (-x)
  | infinite s => infinite !s
  | nan => nan

/-- `<`, false with a NaN. -/
def less : Extended → Extended → Bool
  | finite x, finite y => decide (x < y)
  | finite _, infinite t => !t
  | infinite s, finite _ => s
  | infinite s, infinite t => s && !t
  | _, _ => false

/-- `<=`, false with a NaN. -/
def lessEqual (x y : Extended) : Bool := less x y || (x == y && x != nan)

variable (limit : ℚ)

/-- A result beyond the limit becomes an infinity. -/
def rounded : Extended → Extended
  | finite q => if |q| ≤ limit then finite q else infinite (decide (q < 0))
  | x => x

def add (x y : Extended) : Extended := rounded limit (plus x y)

def sub (x y : Extended) : Extended := add limit x (neg y)

def mul (x y : Extended) : Extended := rounded limit (product x y)

/-- `x * y + s`, rounded once. -/
def fma (x y s : Extended) : Extended := add limit (product x y) s

def div : Extended → Extended → Extended
  | finite x, finite y =>
    if y = 0 then if x = 0 then nan else infinite (decide (x < 0)) else rounded limit (finite (x / y))
  | finite _, infinite _ => finite 0
  | infinite s, finite y => infinite (s != decide (y < 0))
  | _, _ => nan

/-- Zero or more, and maybe infinite. -/
def NonNegative : Extended → Prop
  | finite q => 0 ≤ q
  | infinite s => s = false
  | nan => False

variable {limit} {x y s : Extended}

theorem NonNegative.ne_nan (h : NonNegative x) : x ≠ nan := by
  rintro rfl
  exact h

theorem NonNegative.rounded (h : NonNegative x) : NonNegative (rounded limit x) := by
  cases x with
  | finite q =>
    have hq : ¬ q < 0 := not_lt.mpr h
    by_cases hle : |q| ≤ limit
    · simpa [Extended.rounded, hle] using h
    · simp [Extended.rounded, hle, hq, NonNegative]
  | infinite s => exact h
  | nan => exact h

theorem NonNegative.add (hx : NonNegative x) (hy : NonNegative y) :
    NonNegative (add limit x y) := by
  refine NonNegative.rounded ?_
  cases x with
  | finite p =>
    cases y with
    | finite q => exact add_nonneg hx hy
    | infinite t => exact hy
    | nan => exact hy
  | infinite s =>
    cases y with
    | finite q => exact hx
    | infinite t =>
      have hs : s = false := hx
      have ht : t = false := hy
      simp [plus, hs, ht, NonNegative]
    | nan => exact hy
  | nan => exact hx.elim

theorem product_comm (x y : Extended) : product x y = product y x := by
  cases x <;> cases y <;> simp [product, mul_comm, Bool.xor_comm]

/-- A square, of anything but a NaN. -/
theorem nonNegative_product_self (h : x ≠ nan) : NonNegative (product x x) := by
  cases x with
  | finite q => exact mul_self_nonneg q
  | infinite s => simp [product, NonNegative]
  | nan => exact absurd rfl h

end Extended

/-- A sum in the order in which it is computed: terms that are added exactly, terms that are
rounded before, and partial sums, all of which are rounded. -/
inductive Summation where
  | exact (q : ℚ)
  | rounded (q : ℚ)
  | add (l r : Summation)
  deriving DecidableEq, Repr

namespace Summation
variable (limit : ℚ)

def value : Summation → ℚ
  | exact q => q
  | rounded q => q
  | add l r => l.value + r.value

/-- What is computed. -/
def eval : Summation → Extended
  | exact q => .finite q
  | rounded q => Extended.rounded limit (.finite q)
  | add l r => Extended.add limit l.eval r.eval

/-- Nothing that is rounded is beyond the limit. -/
def Within : Summation → Prop
  | exact _ => True
  | rounded q => |q| ≤ limit
  | add l r => l.Within ∧ r.Within ∧ |l.value + r.value| ≤ limit

/-- A term or a partial sum passes the limit to this side, and nothing it is a sum of passes
it before. -/
def Passes (negative : Bool) : Summation → Prop
  | exact _ => False
  | rounded q => limit < |q| ∧ negative = decide (q < 0)
  | add l r => l.Passes negative ∨ r.Passes negative ∨
      (l.Within limit ∧ r.Within limit ∧ limit < |l.value + r.value| ∧
        negative = decide (l.value + r.value < 0))

/-- The sum of what the terms measure. -/
def weight : Summation → ℚ
  | exact q => |q|
  | rounded q => |q|
  | add l r => l.weight + r.weight

variable {limit}

theorem abs_value_le_weight (t : Summation) : |t.value| ≤ t.weight := by
  induction t with
  | exact q => exact le_rfl
  | rounded q => exact le_rfl
  | add l r ihl ihr => exact (abs_add_le _ _).trans (add_le_add ihl ihr)

theorem weight_nonneg (t : Summation) : 0 ≤ t.weight :=
  (abs_nonneg _).trans t.abs_value_le_weight

/-- Terms that are small enough together are within the limit in any order. -/
theorem within_of_weight_le {t : Summation} (h : t.weight ≤ limit) : t.Within limit := by
  induction t with
  | exact q => trivial
  | rounded q => exact h
  | add l r ihl ihr =>
    have hl := l.weight_nonneg
    have hr := r.weight_nonneg
    simp only [weight] at h
    exact ⟨ihl (by linarith), ihr (by linarith),
      (abs_value_le_weight (add l r)).trans (by simpa [weight] using h)⟩

/-- The value within the limit, an infinity beyond it, and NaN where it was passed to both
sides. -/
inductive Outcome (limit : ℚ) (t : Summation) : Extended → Prop where
  | within : t.Within limit → (∀ s, ¬ t.Passes limit s) → Outcome limit t (.finite t.value)
  | beyond (s : Bool) : ¬ t.Within limit → t.Passes limit s → ¬ t.Passes limit (!s) →
      Outcome limit t (.infinite s)
  | both : ¬ t.Within limit → (∀ s, t.Passes limit s) → Outcome limit t .nan

theorem outcome_rounded (q : ℚ) : Outcome limit (rounded q) ((rounded q).eval limit) := by
  by_cases h : |q| ≤ limit
  · have heval : (rounded q).eval limit = .finite (rounded q).value := by
      simp [eval, Extended.rounded, h, value]
    rw [heval]
    exact .within h fun s hs => absurd hs.1 (not_lt.mpr h)
  · have heval : (rounded q).eval limit = .infinite (decide (q < 0)) := by
      simp [eval, Extended.rounded, h]
    rw [heval]
    exact .beyond _ h ⟨not_le.mp h, rfl⟩ fun hs => by simpa using hs.2

theorem outcome_add_within {l r : Summation} (hl : l.Within limit) (hr : r.Within limit)
    (hlnot : ∀ s, ¬ l.Passes limit s) (hrnot : ∀ s, ¬ r.Passes limit s) :
    Outcome limit (add l r) (Extended.rounded limit (.finite (l.value + r.value))) := by
  by_cases h : |l.value + r.value| ≤ limit
  · rw [Extended.rounded, if_pos h]
    refine .within ⟨hl, hr, h⟩ fun s hs => ?_
    rcases hs with hs | hs | hs
    · exact hlnot s hs
    · exact hrnot s hs
    · exact absurd hs.2.2.1 (not_lt.mpr h)
  · rw [Extended.rounded, if_neg h]
    refine .beyond _ (fun hw => h hw.2.2) (.inr (.inr ⟨hl, hr, not_le.mp h, rfl⟩)) fun hs => ?_
    rcases hs with hs | hs | hs
    · exact hlnot _ hs
    · exact hrnot _ hs
    · simpa using hs.2.2.2

theorem outcome (t : Summation) : Outcome limit t (t.eval limit) := by
  induction t with
  | exact q => exact .within trivial fun _ h => h
  | rounded q => exact outcome_rounded q
  | add l r ihl ihr =>
    rw [eval, Extended.add]
    generalize l.eval limit = x at ihl
    generalize r.eval limit = y at ihr
    cases ihl with
    | within hl hlnot =>
      cases ihr with
      | within hr hrnot => exact outcome_add_within hl hr hlnot hrnot
      | beyond s hr hs hnot =>
        exact .beyond s (fun h => hr h.2.1) (.inr (.inl hs)) (by simp [Passes, hlnot, hnot, hr])
      | both hr hs => exact .both (fun h => hr h.2.1) fun s => .inr (.inl (hs s))
    | beyond s hl hs hnot =>
      cases ihr with
      | within hr hrnot =>
        exact .beyond s (fun h => hl h.1) (.inl hs) (by simp [Passes, hrnot, hnot, hl])
      | beyond t hr ht htnot =>
        by_cases hst : s = t
        · subst hst
          rw [Extended.plus, if_pos rfl]
          exact .beyond s (fun h => hl h.1) (.inl hs) (by simp [Passes, hnot, htnot, hl])
        · rw [Extended.plus, if_neg hst]
          refine .both (fun h => hl h.1) fun u => ?_
          by_cases hu : u = s
          · exact .inl (hu ▸ hs)
          · have hut : u = t := by
              cases u <;> cases s <;> cases t <;> simp_all
            exact .inr (.inl (hut ▸ ht))
      | both hr ht => exact .both (fun h => hl h.1) fun u => .inr (.inl (ht u))
    | both hl hs => exact .both (fun h => hl h.1) fun u => .inl (hs u)

/-- A sum comes out as NaN exactly where the limit was passed to both sides. -/
theorem eval_eq_nan_iff (t : Summation) :
    t.eval limit = .nan ↔ t.Passes limit false ∧ t.Passes limit true := by
  have h : Outcome limit t (t.eval limit) := outcome t
  generalize t.eval limit = x at h
  cases h with
  | within _ hnot => simp [hnot]
  | beyond s _ _ hnot => cases s <;> simp_all
  | both _ hs => simp [hs]

theorem eval_eq_finite_iff (t : Summation) :
    (∃ q, t.eval limit = .finite q) ↔ t.Within limit := by
  have h : Outcome limit t (t.eval limit) := outcome t
  generalize t.eval limit = x at h
  cases h with
  | within hw _ => simp [hw]
  | beyond s hw _ _ => simp [hw]
  | both hw _ => simp [hw]

end Summation

end VectorDb.Lib
