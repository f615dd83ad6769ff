import VectorDb.Core.Error

/-!
src/core/vector.cpp. A vector is the bit patterns of its components; what the code
computes with them in floating point comes from outside.
-/
set_option autoImplicit false

namespace VectorDb

abbrev FloatVector := List (BitVec 32)

namespace Component

/-- `std::isfinite`. -/
def isFinite (x : BitVec 32) : Bool := x.extractLsb' 23 8 != 0xff#8

/-- `std::isnan`. -/
def isNaN (x : BitVec 32) : Bool := !isFinite x && x.extractLsb' 0 23 != 0#23

/-- `x == 0.0F`, of either sign. -/
def isZero (x : BitVec 32) : Bool := x.extractLsb' 0 31 == 0#31

def zero : BitVec 32 := 0x00000000#32

def one : BitVec 32 := 0x3f800000#32

end Component

def findNonFinite (vector : FloatVector) : Nat :=
  vector.findIdx fun x => !Component.isFinite x

def isFinite (vector : FloatVector) : Bool := findNonFinite vector == vector.length

/-- The text of an `InvalidVectorError`. -/
def nonFiniteMessage (index : Nat) (value : BitVec 32) : String :=
  "vector rejected: component " ++ toString index ++ " is " ++
    (if Component.isNaN value then "NaN" else if value.msb then "-Inf" else "+Inf") ++
    "; VectorDB rejects non-finite components at insertion because they " ++
    "make distance comparisons non-transitive and silently corrupt every " ++
    "index that relies on ordering"

def validateVector (vector : FloatVector) (expectedDimension : Dimension) : Except Error Unit :=
  if vector.length ≠ expectedDimension then
    .error (.dimensionMismatch expectedDimension
      (if kMaxDimension < vector.length then kMaxDimension else vector.length))
  else if findNonFinite vector ≠ vector.length then
    .error (.invalidVector
      (nonFiniteMessage (findNonFinite vector) (vector.getD (findNonFinite vector) 0#32)))
  else .ok ()

/-- What is computed in floating point: on vectors, on their cached norms, and on
the rank keys and scores of a search. -/
structure Arithmetic (K : Type) where
  l2Norm : FloatVector → BitVec 32
  reciprocal : BitVec 32 → BitVec 32
  multiply : BitVec 32 → BitVec 32 → BitVec 32
  withNorms : Metric → FloatVector → BitVec 32 → FloatVector → BitVec 32 → K
  scoreFromRankKey : Metric → K → BitVec 32

namespace Arithmetic
variable {K : Type} (a : Arithmetic K)

/-- `normalize_in_place`: what it leaves in the vector, and the norm it returns. -/
def normalizeInPlace (vector : FloatVector) : FloatVector × BitVec 32 :=
  let norm := a.l2Norm vector
  if Component.isZero norm then (vector, Component.zero)
  else (vector.map fun x => a.multiply x (a.reciprocal norm), norm)

@[simp] theorem length_normalizeInPlace (vector : FloatVector) :
    (a.normalizeInPlace vector).1.length = vector.length := by
  unfold normalizeInPlace
  dsimp only
  split <;> simp

end Arithmetic

theorem validateVector_length {vector : FloatVector} {dimension : Dimension}
    (h : validateVector vector dimension = .ok ()) : vector.length = dimension := by
  unfold validateVector at h
  split at h
  · cases h
  next hl => exact not_not.mp hl

end VectorDb
