import VectorDb.Core.Types
import VectorDb.Lib.Heap

/-!
Search candidates and their order. A rank key is only compared, so its type is a
parameter with the comparisons the code makes; a `float` NaN compares false.
-/
set_option autoImplicit false

namespace VectorDb.Index

open VectorDb.Lib

structure Candidate (K : Type) where
  localId : LocalId
  key : K
  deriving DecidableEq, Repr

variable {K : Type} [BEq K] [LT K] [DecidableLT K]

/-- `CandidateBetter`. -/
def candidateBetter (a b : Candidate K) : Bool :=
  if a.key != b.key then decide (a.key < b.key) else decide (a.localId < b.localId)

/-- `CandidateWorse`, the order of the frontier's heap. -/
def candidateWorse (a b : Candidate K) : Bool := candidateBetter b a

section Linear
variable {L : Type} [LinearOrder L]

theorem candidateBetter_iff (a b : Candidate L) :
    candidateBetter a b = true ↔ toLex (a.key, a.localId) < toLex (b.key, b.localId) := by
  rw [Prod.Lex.toLex_lt_toLex]
  unfold candidateBetter
  by_cases h : a.key = b.key
  · simp [h]
  · simp [h]

/-- Where keys are in a total order, so are the candidates. -/
theorem strictWeak_candidateBetter : StrictWeak (candidateBetter (K := L)) where
  asymm a b h := by
    rw [candidateBetter_iff] at h
    rw [Bool.eq_false_iff, ne_eq, candidateBetter_iff]
    exact h.asymm
  negTrans a b c hab hbc := by
    rw [Bool.eq_false_iff, ne_eq, candidateBetter_iff, not_lt] at hab hbc ⊢
    exact hbc.trans hab

theorem key_le_of_notAfter {a b : Candidate L} (h : NotAfter candidateBetter a b) :
    a.key ≤ b.key := by
  rw [NotAfter, Bool.eq_false_iff, ne_eq, candidateBetter_iff, not_lt] at h
  exact Prod.Lex.monotone_fst _ _ h

end Linear

end VectorDb.Index
