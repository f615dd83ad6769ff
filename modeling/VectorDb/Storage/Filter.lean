import VectorDb.Storage.Metadata

/-!
src/storage/filter.cpp: predicates over metadata. Doubles are compared by their bit
patterns.
-/
set_option autoImplicit false

namespace VectorDb.Storage

inductive FilterOp where
  | equal | notEqual | less | lessEqual | greater | greaterEqual
  deriving DecidableEq, Repr

/-- Where a double that is no NaN stands among the others; both zeros stand at 0. -/
def realRank (bits : BitVec 64) : Int :=
  let magnitude : Int := (bits.extractLsb' 0 63).toNat
  if bits.msb then -magnitude else magnitude

/-- `<` of doubles. -/
def realLess (a b : BitVec 64) : Bool :=
  !isNaN a && !isNaN b && realRank a < realRank b

/-- The double nearest to a positive natural below 2^64, ties to the even one. -/
def realOfMagnitude (n : Nat) : Nat :=
  let exponent := Nat.log2 n
  let shift := exponent - 52
  let quotient := n <<< (52 - exponent) >>> shift
  let remainder := n % 2 ^ shift
  let up := 2 ^ shift < 2 * remainder ∨ (2 * remainder = 2 ^ shift ∧ quotient % 2 = 1)
  (1022 + exponent) * 2 ^ 52 + (if up then quotient + 1 else quotient)

/-- `static_cast<double>` of a `std::int64_t`. -/
def realOfInteger (n : BitVec 64) : BitVec 64 :=
  let magnitude := BitVec.ofNat 64 (if n = 0 then 0 else realOfMagnitude n.toInt.natAbs)
  if n.msb then magnitude ||| negativeZero else magnitude

/-- A value as a number, if it is one. -/
def MetadataValue.number? : MetadataValue → Option (BitVec 64)
  | .integer n => some (realOfInteger n)
  | .real bits => some bits
  | _ => none

/-- `compare_values`. -/
def compareValues (stored wanted : MetadataValue) : Option Ordering :=
  match stored.number?, wanted.number? with
  | some a, some b =>
    some (if realLess a b then .lt else if realLess b a then .gt else .eq)
  | _, _ =>
    match stored, wanted with
    | .text a, .text b => some (compare a b)
    | .null, .null => some .eq
    | _, _ => none

def FilterOp.holds : FilterOp → Ordering → Bool
  | .equal, order => order == .eq
  | .notEqual, order => order != .eq
  | .less, order => order == .lt
  | .lessEqual, order => order != .gt
  | .greater, order => order == .gt
  | .greaterEqual, order => order != .lt

structure FilterCondition where
  key : Text
  op : FilterOp
  value : MetadataValue
  deriving DecidableEq, Repr

def FilterCondition.matches (c : FilterCondition) (metadata : Metadata) : Bool :=
  match metadata[c.key]? with
  | none => false
  | some stored =>
    match compareValues stored c.value with
    | none => false
    | some order => c.op.holds order

/-- `Filter`: conditions combined with AND. -/
abbrev Filter := List FilterCondition

def Filter.matches (filter : Filter) (metadata : Metadata) : Bool :=
  filter.all (·.matches metadata)

/-- A missing key never matches. -/
theorem Filter.matches_empty {filter : Filter} (h : filter.isEmpty = false) :
    filter.matches ∅ = false := by
  cases filter with
  | nil => cases h
  | cons c filter => simp [Filter.matches, FilterCondition.matches]

example : [1, 2 ^ 53 + 1, 2 ^ 53 + 3, 2 ^ 64 - 1].map (fun n => realOfInteger (BitVec.ofNat 64 n)) =
    [0x3FF0000000000000#64, 0x4340000000000000#64, 0x4340000000000002#64,
      0xBFF0000000000000#64] := by decide +kernel

end VectorDb.Storage
