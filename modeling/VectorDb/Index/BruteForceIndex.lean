import VectorDb.Index.HnswIndex
import VectorDb.Index.TopK

/-!
The exact scan of src/index/brute_force/brute_force_index.cpp.
-/
set_option autoImplicit false

namespace VectorDb.Index

open VectorDb.Lib

namespace BruteForceIndex

section Scan
variable {K : Type} [BEq K] [LT K] [DecidableLT K]
variable (std : StdAlgorithms (Candidate K)) (view : SlotView K) (query : Query K)

def searchRange (first last : LocalId) (collector : TopKCollector K) : TopKCollector K :=
  (List.range' first (last - first)).foldl
    (fun collector id =>
      if view.live id then collector.offer std ⟨id, query.key id⟩ else collector)
    collector

def search (k : Nat) : Except Error (List (Candidate K)) :=
  if k = 0 then .error (.invalidArgument "search requires k >= 1")
  else if query.size ≠ view.dimension then
    .error (.dimensionMismatch view.dimension query.size)
  else do
    let collector ← TopKCollector.create k
    ((searchRange std view query 0 view.size collector).takeSorted std).1

/-- The live slots of a range, each with its key. -/
def candidates (first last : LocalId) : List (Candidate K) :=
  ((List.range' first (last - first)).filter view.live).map fun id => ⟨id, query.key id⟩

theorem searchRange_eq (first last : LocalId) (collector : TopKCollector K) :
    searchRange std view query first last collector =
      (candidates view query first last).foldl (TopKCollector.offer std) collector := by
  simp only [searchRange, candidates, List.foldl_map, List.foldl_filter]

variable {std view query}

/-- What an exact search returns is live, whatever order it uses. -/
theorem live_of_mem_search {k : Nat} {found : List (Candidate K)} {c : Candidate K}
    (h : search std view query k = .ok found) (hc : c ∈ found) : view.live c.localId = true := by
  unfold search at h
  split at h
  · cases h
  · split at h
    · cases h
    · cases hcreate : (TopKCollector.create k : Except Error (TopKCollector K)) with
      | error e =>
        rw [hcreate] at h
        cases h
      | ok collector =>
        rw [hcreate] at h
        have hmem := TopKCollector.mem_takeSorted h hc
        rw [searchRange_eq] at hmem
        rcases TopKCollector.mem_offers hmem with hmem | hmem
        · rw [TopKCollector.create_heap hcreate] at hmem
          cases hmem
        · obtain ⟨i, hi, rfl⟩ := List.mem_map.mp hmem
          exact (List.mem_filter.mp hi).2

end Scan

theorem flatten_candidates {K : Type} (view : SlotView K) (query : Query K)
    (ranges : List (LocalId × LocalId)) :
    (ranges.map fun range => candidates view query range.1 range.2).flatten =
      ((ranges.flatMap fun range => List.range' range.1 (range.2 - range.1)).filter view.live).map
        fun id => ⟨id, query.key id⟩ := by
  induction ranges with
  | nil => rfl
  | cons range ranges ih =>
    rw [List.map_cons, List.flatten_cons, ih, List.flatMap_cons, List.filter_append,
      List.map_append, candidates]

/-- An exact search gives the first `k` of the live slots in order. -/
theorem search_eq {L : Type} [LinearOrder L] (std : StdAlgorithms (Candidate L))
    (view : SlotView L) (query : Query L) {k : Nat} (hk : 0 < k) (hmax : k ≤ kMaxCandidates)
    (hquery : query.size = view.dimension) :
    search std view query k = .ok
      (best (NotAfter candidateBetter) k (candidates view query 0 view.size)) := by
  rw [search, if_neg (by omega), if_neg (by simp [hquery]), TopKCollector.create_of_le hk hmax]
  show ((searchRange std view query 0 view.size ⟨k, []⟩).takeSorted std).1 = _
  rw [searchRange_eq, TopKCollector.takeSorted_offers std hk hmax]

/-- For more than a vector can have room for it throws. -/
theorem search_of_lt {K : Type} [BEq K] [LT K] [DecidableLT K] (std : StdAlgorithms (Candidate K))
    (view : SlotView K) (query : Query K) {k : Nat} (hmax : kMaxCandidates < k)
    (hquery : query.size = view.dimension) :
    search std view query k = .error (.foreign "vector::reserve") := by
  rw [search, if_neg (by omega), if_neg (by simp [hquery]), TopKCollector.create_of_lt hmax]
  rfl

end BruteForceIndex

end VectorDb.Index
