import VectorDb.Lib.Word

/-!
The value types of include/vectordb/core/types.hpp. Machine words are bounded
naturals, a byte string is a list of bytes and a `float` is its bit pattern.
-/
set_option autoImplicit false

namespace VectorDb

abbrev Byte := Fin 256

abbrev Bytes := List Byte

/-- Bytes as the text of a message, one character each. -/
def asText (bytes : Bytes) : String := String.ofList (bytes.map fun b => Char.ofNat b.val)

/-- `std::uint64_t`; additions wrap. -/
abbrev VectorId := Fin 18446744073709551616

/-- A slot number; the code keeps it below `kInvalidLocalId`. -/
abbrev LocalId := Nat

abbrev Dimension := Nat

def kInvalidLocalId : LocalId := 4294967295

def kMaxDimension : Dimension := 65536

def kMaxVectorCount : Nat := kInvalidLocalId - 1

inductive Metric where
  | l2Squared | cosine | innerProduct
  deriving DecidableEq, Repr

inductive IndexType where
  | bruteForce | hnsw
  deriving DecidableEq, Repr

def kMetricNames : List (String × Metric) :=
  [("l2", .l2Squared), ("l2_squared", .l2Squared), ("euclidean", .l2Squared),
    ("cosine", .cosine), ("dot", .innerProduct)]

def kIndexNames : List (String × IndexType) :=
  [("brute_force", .bruteForce), ("bruteforce", .bruteForce), ("flat", .bruteForce),
    ("hnsw", .hnsw)]

def metricName : Metric → String
  | .l2Squared => "l2"
  | .cosine => "cosine"
  | .innerProduct => "dot"

def parseMetric (name : String) : Option Metric := kMetricNames.lookup name

def indexTypeName : IndexType → String
  | .bruteForce => "brute_force"
  | .hnsw => "hnsw"

def parseIndexType (name : String) : Option IndexType := kIndexNames.lookup name

@[simp] theorem parseMetric_metricName (m : Metric) : parseMetric (metricName m) = some m := by
  cases m <;> decide

@[simp] theorem parseIndexType_indexTypeName (t : IndexType) :
    parseIndexType (indexTypeName t) = some t := by
  cases t <;> decide

end VectorDb
