import VectorDb.Core.Error

/-!
HNSW's tuning parameters.
-/
set_option autoImplicit false

namespace VectorDb.Index

/-- The counts are of type `std::size_t`, the seed a 64-bit word. -/
structure HnswConfig where
  m : Nat
  efConstruction : Nat
  efSearch : Nat
  seed : BitVec 64
  deriving DecidableEq, Repr

namespace HnswConfig

def maxM0 (c : HnswConfig) : Nat := c.m * 2

def maxNeighbours (c : HnswConfig) (layer : Nat) : Nat :=
  if layer = 0 then c.maxM0 else c.m

def validate (c : HnswConfig) : Except Error Unit :=
  if c.m < 2 then
    .error (.invalidArgument ("hnsw: M must be at least 2 (got " ++ toString c.m ++
      "); below about 5 the graph loses connectivity and recall collapses"))
  else if c.m > 512 then
    .error (.invalidArgument ("hnsw: M must be at most 512 (got " ++ toString c.m ++
      "); beyond about 64 the returns are small and the memory is not"))
  else if c.efConstruction < 1 then
    .error (.invalidArgument "hnsw: efConstruction must be at least 1")
  else if c.efSearch < 1 then
    .error (.invalidArgument "hnsw: efSearch must be at least 1")
  else if c.efConstruction < c.m then
    .error (.invalidArgument ("hnsw: efConstruction (" ++ toString c.efConstruction ++
      ") must be at least M (" ++ toString c.m ++
      "), or a node cannot see enough candidates to fill its neighbour list"))
  else .ok ()

/-- What `validate` accepts. -/
structure Valid (c : HnswConfig) : Prop where
  m_ge : 2 ≤ c.m
  m_le : c.m ≤ 512
  efConstruction_ge : c.m ≤ c.efConstruction
  efSearch_pos : 0 < c.efSearch

theorem validate_eq_ok_iff (c : HnswConfig) : c.validate = .ok () ↔ c.Valid := by
  constructor
  · intro h
    unfold validate at h
    split_ifs at h
    exact ⟨by omega, by omega, by omega, by omega⟩
  · rintro ⟨h1, h2, h3, h4⟩
    unfold validate
    rw [if_neg (by omega), if_neg (by omega), if_neg (by omega), if_neg (by omega),
      if_neg (by omega)]

end HnswConfig

end VectorDb.Index
