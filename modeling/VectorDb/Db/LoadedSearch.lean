import VectorDb.Db.DatabaseEffects
import VectorDb.Index.SearchInside

/-!
A search of a graph that was read from a file, over the store it was read for: no read, of
the graph or of the store, is outside its array.
-/
set_option autoImplicit false

namespace VectorDb.Db

open VectorDb.Lib VectorDb.Storage VectorDb.Index

section Inside
variable {K : Type} [BEq K] [LT K] [DecidableLT K] (p : Platform K) (metric : Metric)
variable (s : VectorStore)

/-- The rank key of a slot whose vector and norm are there. -/
def keyInside (query : FloatVector) (slot : LocalId) : Option K := do
  let row ← s.vectors.rows[slot]?
  let norm ← s.norms[slot]?
  return p.withNorms metric query (if metric = .cosine then p.l2Norm query else Component.zero)
    row norm

def liveInside (slot : LocalId) : Option Bool := s.live[slot]?

theorem keyInside_eq (hnorms : s.norms.length = s.slotCount) (query : FloatVector) {slot : Nat}
    (hslot : slot < s.slotCount) :
    keyInside p metric s query slot = some ((queryOf p metric s query).key slot) := by
  have hrow : s.vectors.rows[slot]? = some (s.vector slot) := by
    rw [VectorStore.vector, VectorArray.row, List.getD_eq_getElem?_getD,
      List.getElem?_eq_getElem hslot]
    rfl
  have hlt : slot < s.norms.length := hnorms ▸ hslot
  have hnorm : s.norms[slot]? = some (s.norm slot) := by
    rw [VectorStore.norm, List.getD_eq_getElem?_getD, List.getElem?_eq_getElem hlt]
    rfl
  rw [keyInside, hrow, hnorm]
  rfl

theorem liveInside_eq (hlive : s.live.length = s.slotCount) {slot : Nat}
    (hslot : slot < s.slotCount) : liveInside s slot = some (s.isLive slot) := by
  have hlt : slot < s.live.length := hlive ▸ hslot
  rw [liveInside, VectorStore.isLive, List.getD_eq_getElem?_getD, List.getElem?_eq_getElem hlt]
  rfl

/-- Whatever the bytes, once they are accepted every search of the graph reads inside the arrays
and ends. -/
theorem searchInside_readHnswFile (hk : HnswIndex.StrictKeys K)
    (hnorms : s.norms.length = s.slotCount) (hlive : s.live.length = s.slotCount) {bytes : Bytes}
    {dimension : Dimension} {h : HnswIndex}
    (hread : readHnswFile bytes s.slotCount metric dimension = .ok h) (query : FloatVector)
    (params : SearchParams) :
    h.searchInside p.std (keyInside p metric s query) (liveInside s) s.dimension query.length
      params = some (h.search p.std (accessor p metric s) (queryOf p metric s query) params) := by
  obtain ⟨f, hl⟩ := readHnswFile_eq_ok hread
  have hcount : h.nodeCount = s.slotCount := hl.nodeCount.trans hl.nodeCount_eq
  have hseen : ∀ i < h.nodeCount, liveInside s i = some ((accessor p metric s).live i) :=
    fun i hi => liveInside_eq s hlive (hcount ▸ hi)
  exact HnswIndex.searchInside_eq p.std hk hl.navigable
    (fun i hi => keyInside_eq p metric s hnorms query (hcount ▸ hi)) hseen query.length params

end Inside

/-- Three slots, of which one is a tombstone. -/
def threeSlots : VectorStore where
  vectors := ⟨1, [[Component.one], [Component.zero], [Component.one]], Nat.one_ne_zero,
    one_le_kMaxDimension, by decide, by decide⟩
  norms := [Component.one, Component.zero, Component.one]
  live := [true, false, true]
  localToId := [3, 8, 5]
  idToLocal := ∅
  liveCount := 2
  normalizes := false

/-- The file of a graph of three nodes, of which two have upper layers. -/
theorem searchInside_readHnswFile_three :
    ∃ (g h : HnswIndex), g.nodeLevel = [0, 2, 1] ∧
      readHnswFile (writeHnswFile g 1) threeSlots.slotCount .l2Squared 1 = .ok h ∧
      h.maxLevel = 2 ∧
      h.searchInside unitPlatform.std (keyInside unitPlatform .l2Squared threeSlots [Component.one])
        (liveInside threeSlots) threeSlots.dimension 1 ⟨3, 0⟩ =
        some (h.search unitPlatform.std (accessor unitPlatform .l2Squared threeSlots)
          (queryOf unitPlatform .l2Squared threeSlots [Component.one]) ⟨3, 0⟩) := by
  have hfile : (HnswIndex.addLevels unitPlatform.std (accessor unitPlatform .l2Squared threeSlots)
      HnswIndex.narrow32 (.empty .l2Squared ⟨2, 2, 1, 0⟩) [0, 2, 1]).toOption.any fun g =>
        decide (g.nodeLevel = [0, 2, 1]) &&
        (readHnswFile (writeHnswFile g 1) 3 .l2Squared 1).toOption.any fun h =>
          decide (h.maxLevel = 2) := by decide +kernel
  simp only [Option.any_eq_true, Bool.and_eq_true, decide_eq_true_eq, Except.toOption_eq_some]
    at hfile
  obtain ⟨g, -, hlevels, h, hread, hmax⟩ := hfile
  exact ⟨g, h, hlevels, hread, hmax, searchInside_readHnswFile unitPlatform .l2Squared threeSlots
    ⟨Nat.lt_irrefl, fun _ _ _ => Nat.lt_trans⟩ rfl rfl hread [Component.one] ⟨3, 0⟩⟩

end VectorDb.Db
