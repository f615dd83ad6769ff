import VectorDb.Index.HnswRuns

/-!
Where the upper layers of each node begin, against the 32 bits that are stored of it.
-/
set_option autoImplicit false

namespace VectorDb.Index

open VectorDb.Lib

namespace HnswIndex

/-- What is stored for nodes of these levels, the first of which starts at `start`. -/
def storedOffsets (stride : Nat) : Nat → List Nat → List Nat
  | _, [] => []
  | start, level :: levels =>
    (if 0 < level then narrow32 start else kNoUpperLinks) ::
      storedOffsets stride (start + level * stride) levels

theorem storedOffsets_getElem {stride start i level : Nat} {levels : List Nat}
    (hi : levels[i]? = some level) (hpos : 0 < level) :
    (storedOffsets stride start levels)[i]? =
      some (narrow32 (start + (levels.take i).sum * stride)) := by
  induction levels generalizing start i with
  | nil => simp at hi
  | cons l levels ih =>
    cases i with
    | zero =>
      cases hi
      simp [storedOffsets, hpos]
    | succ i =>
      rw [List.getElem?_cons_succ] at hi
      rw [storedOffsets, List.getElem?_cons_succ, ih hi, List.take_succ_cons, List.sum_cons]
      congr 2
      ring

section Add
variable {K : Type} [BEq K] [LT K] [DecidableLT K]
variable (std : StdAlgorithms (Candidate K)) (view : SlotView K) {h r : HnswIndex}

theorem addWithLevel_upperOffsets {narrow : Nat → Nat} {level : Nat} (hsize : h.nodeCount < view.size)
    (hr : addWithLevel std view narrow h h.nodeCount level = .ok r) :
    r.upperOffsets =
      h.upperOffsets ++ [if 0 < level then narrow h.upperLinks.length else kNoUpperLinks] := by
  rw [addWithLevel, if_neg (by simp), if_neg (by omega)] at hr
  split at hr
  · cases hr
    rfl
  · cases hr
    have hs := wireLayers_sameNodes std view h.nodeCount
      (min level (h.grow narrow level).maxLevel + 1) (h.grow narrow level)
      [descendLayers (h.grow narrow level) (view.key h.nodeCount) level
        (h.grow narrow level).maxLevel (h.grow narrow level).entryPoint]
    unfold connect
    dsimp only
    split <;> exact hs.upperOffsets

/-- Whatever the arrays hold, each call appends its level, its offset and its blocks. -/
theorem addLevels_appended (h : HnswIndex) {levels : List Nat} (hlevels : ∀ l ∈ levels, l ≤ 254)
    (hsize : h.nodeCount + levels.length ≤ view.size) :
    ∃ r, addLevels std view narrow32 h levels = .ok r ∧ r.nodeLevel = h.nodeLevel ++ levels ∧
      r.upperLinks.length = h.upperLinks.length + levels.sum * h.upperStride ∧
      r.upperOffsets =
        h.upperOffsets ++ storedOffsets h.upperStride h.upperLinks.length levels := by
  induction levels generalizing h with
  | nil => exact ⟨h, rfl, by simp, by simp, by simp [storedOffsets]⟩
  | cons l levels ih =>
    rw [List.length_cons] at hsize
    obtain ⟨g, hg, ha, -⟩ := addWithLevel_appended std view narrow32 h (hlevels l (by simp))
      (by omega)
    have hoffset := addWithLevel_upperOffsets std view (by omega) hg
    have hstride : g.upperStride = h.upperStride := by rw [upperStride, upperStride, ha.config]
    obtain ⟨r, hr, hnodes, hupper, hoffsets⟩ := ih g (fun k hk => hlevels k (by simp [hk]))
      (by rw [ha.nodeCount]; omega)
    rw [hstride, ha.upper_length] at hupper hoffsets
    refine ⟨r, by rw [addLevels, hg]; exact hr, by simp [hnodes, ha.nodeLevel], ?_, ?_⟩
    · rw [hupper, List.sum_cons]
      ring
    · rw [hoffsets, hoffset, storedOffsets, List.append_assoc]
      rfl

/-- Every node with upper layers has as its offset the size the arena had when the node
came, and not the mark of a node without any. -/
def OffsetsExact (metric : Metric) (config : HnswConfig) (levels : List Nat) (h : HnswIndex) : Prop :=
  ∀ i level g, levels[i]? = some level → 0 < level →
    addLevels std view narrow32 (empty metric config) (levels.take i) = .ok g →
    h.upperOffsets[i]? = some g.upperLinks.length ∧ h.upperOffsets[i]? ≠ some kNoUpperLinks

theorem addLevels_empty (metric : Metric) (config : HnswConfig) {levels : List Nat}
    (hlevels : ∀ l ∈ levels, l ≤ 254) (hsize : levels.length ≤ view.size) :
    ∃ h, addLevels std view narrow32 (empty metric config) levels = .ok h ∧ h.nodeLevel = levels ∧
      h.upperLinks.length = levels.sum * (config.m + 1) ∧
      h.upperOffsets = storedOffsets (config.m + 1) 0 levels := by
  have hzero : (empty metric config).nodeCount + levels.length ≤ view.size := by
    simpa [empty, nodeCount] using hsize
  obtain ⟨h, hh, hnodes, hupper, hoffsets⟩ := addLevels_appended std view (empty metric config)
    hlevels hzero
  exact ⟨h, hh, by simpa [empty] using hnodes, by simpa [empty, upperStride] using hupper,
    by simpa [empty, upperStride] using hoffsets⟩

theorem addLevels_take (metric : Metric) (config : HnswConfig) {levels : List Nat}
    (hlevels : ∀ l ∈ levels, l ≤ 254) (hsize : levels.length ≤ view.size) (i : Nat) :
    ∃ g, addLevels std view narrow32 (empty metric config) (levels.take i) = .ok g ∧
      g.upperLinks.length = (levels.take i).sum * (config.m + 1) := by
  obtain ⟨g, hg, -, hupper, -⟩ := addLevels_empty std view metric config
    (fun l (hl : l ∈ levels.take i) => hlevels l (List.mem_of_mem_take hl)) ((List.length_take_le' i levels).trans hsize)
  exact ⟨g, hg, hupper⟩

/-- The stored offsets are exact if and only if the blocks before each node with upper
layers take less than 2^32 - 1 entries. -/
theorem addLevels_offsetsExact_iff (metric : Metric) (config : HnswConfig) (levels : List Nat)
    (hconfig : config.validate = .ok ()) (hlevels : ∀ l ∈ levels, l ≤ 254)
    (hsize : levels.length ≤ view.size) :
    ∃ h, create metric config = .ok (empty metric config) ∧
      addLevels std view narrow32 (empty metric config) levels = .ok h ∧ h.nodeLevel = levels ∧
      (OffsetsExact std view metric config levels h ↔
        ∀ i level, levels[i]? = some level → 0 < level →
          (levels.take i).sum * (config.m + 1) < kNoUpperLinks) := by
  have hmark : kNoUpperLinks = 4294967295 := rfl
  obtain ⟨h, hh, hnodes, -, hoffsets⟩ := addLevels_empty std view metric config hlevels hsize
  have hstored : ∀ i level, levels[i]? = some level → 0 < level →
      h.upperOffsets[i]? = some ((levels.take i).sum * (config.m + 1) % 4294967296) := by
    intro i level hi hpos
    rw [hoffsets, storedOffsets_getElem hi hpos, Nat.zero_add, narrow32]
  refine ⟨h, by rw [create, hconfig]; rfl, hh, hnodes, fun hexact i level hi hpos => ?_,
    fun hfits i level g hi hpos hg => ?_⟩
  · obtain ⟨g, hg, hupper⟩ := addLevels_take std view metric config hlevels hsize i
    obtain ⟨heq, hne⟩ := hexact i level g hi hpos hg
    rw [hstored i level hi hpos, hupper] at heq
    rw [hstored i level hi hpos] at hne
    simp only [Option.some.injEq, ne_eq] at heq hne
    omega
  · obtain ⟨f, hf, hupper⟩ := addLevels_take std view metric config hlevels hsize i
    cases hf.symm.trans hg
    have hlt := hfits i level hi hpos
    rw [hstored i level hi hpos, hupper]
    simp only [Option.some.injEq, ne_eq]
    omega

end Add

theorem addLevels_offsetsExact_three :
    ∃ h, addLevels .insertion (tallView 3 (by decide)) narrow32
        (empty .l2Squared ⟨2, 2, 1, 0⟩) [0, 2, 1] = .ok h ∧
      (OffsetsExact .insertion (tallView 3 (by decide)) .l2Squared ⟨2, 2, 1, 0⟩ [0, 2, 1] h ↔
        ∀ i level, [0, 2, 1][i]? = some level → 0 < level →
          ([0, 2, 1].take i).sum * 3 < kNoUpperLinks) := by
  obtain ⟨h, -, hh, -, hiff⟩ := addLevels_offsetsExact_iff .insertion (tallView 3 (by decide))
    .l2Squared ⟨2, 2, 1, 0⟩ [0, 2, 1] rfl (by decide) (by decide)
  exact ⟨h, hh, hiff⟩

/-- Levels for which the last node's blocks begin past what 32 bits hold. -/
def highLevels : List Nat := List.replicate 32963 254

theorem highLevels_offset_wraps :
    ¬ ∀ (size : Nat) (hsize : size ≤ kMaxVectorCount) (config : HnswConfig) (levels : List Nat)
      (h : HnswIndex), config.validate = .ok () → (∀ l ∈ levels, l ≤ 254) →
      levels.length ≤ size →
      addLevels .insertion (tallView size hsize) narrow32 (empty .l2Squared config) levels = .ok h →
      OffsetsExact .insertion (tallView size hsize) .l2Squared config levels h := by
  intro hall
  have hlength : highLevels.length = 32963 := by rw [highLevels, List.length_replicate]
  have hlevels : ∀ l ∈ highLevels, l ≤ 254 := fun l hl => (List.eq_of_mem_replicate hl).le
  have hsum : ∀ n m : Nat, ((List.replicate (n + 1) m).take n).sum = n * m := by
    intro n m
    rw [List.take_replicate, List.sum_replicate, Nat.min_eq_left (Nat.le_succ n), smul_eq_mul]
  have hbefore : (highLevels.take 32962).sum = 32962 * 254 := hsum 32962 254
  obtain ⟨h, hh, -, -, hoffsets⟩ := addLevels_empty .insertion (tallView 32963 (by decide))
    .l2Squared ⟨512, 512, 1, 0⟩ hlevels hlength.le
  obtain ⟨g, hg, hupper⟩ := addLevels_take .insertion (tallView 32963 (by decide)) .l2Squared
    ⟨512, 512, 1, 0⟩ hlevels hlength.le 32962
  have hlast : highLevels[32962]? = some 254 := by
    rw [highLevels, List.getElem?_replicate]
    rfl
  obtain ⟨heq, -⟩ := hall 32963 (by decide) ⟨512, 512, 1, 0⟩ highLevels h rfl hlevels hlength.le
    hh 32962 254 g hlast (by decide) hg
  rw [hoffsets, storedOffsets_getElem hlast (by decide), hupper, hbefore] at heq
  exact absurd heq (by decide)

end HnswIndex

end VectorDb.Index
