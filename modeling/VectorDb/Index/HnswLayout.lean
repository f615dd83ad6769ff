import VectorDb.Index.HnswIndex

/-!
Where the neighbour lists of a graph lie. Every (node, layer) pair has a block of
its own, so rewriting one list leaves every other as it was.
-/
set_option autoImplicit false

namespace VectorDb.Index

open VectorDb.Lib

/-- The sum of what stands before a place ends before that of a later place. -/
theorem sum_take_add_le {l : List Nat} {i j : Nat} (hij : i < j) (hj : j ≤ l.length) :
    (l.take i).sum + l.getD i 0 ≤ (l.take j).sum := by
  have hi : i < l.length := by omega
  calc (l.take i).sum + l.getD i 0
      = (l.take (i + 1)).sum := by rw [List.take_add_one]; simp [hi]
    _ ≤ (l.take j).sum := (List.take_sublist_take_left (by omega)).sum_le_sum (by simp)

namespace HnswIndex

/-- The node is in the graph and reaches the layer. -/
def HasBlock (h : HnswIndex) (node layer : Nat) : Prop :=
  node < h.nodeCount ∧ layer ≤ h.level node

instance (h : HnswIndex) (node layer : Nat) : Decidable (h.HasBlock node layer) :=
  inferInstanceAs (Decidable (_ ∧ _))

theorem HasBlock.mono {h : HnswIndex} {node layer l : Nat}
    (hb : h.HasBlock node layer) (hl : l ≤ layer) : h.HasBlock node l :=
  ⟨hb.1, hl.trans hb.2⟩

/-- How many blocks of the layer's array lie before this one. -/
def blockIndex (h : HnswIndex) (node layer : Nat) : Nat :=
  if layer = 0 then node else (h.nodeLevel.take node).sum + (layer - 1)

/-- The width of a block. -/
def stride (h : HnswIndex) (layer : Nat) : Nat := h.config.maxNeighbours layer + 1

structure Layout (h : HnswIndex) : Prop where
  offsets_length : h.upperOffsets.length = h.nodeCount
  layer0_length : h.layer0Links.length = h.nodeCount * h.layer0Stride
  upper_length : h.upperLinks.length = h.nodeLevel.sum * h.upperStride
  offset : ∀ i, i < h.nodeCount → 0 < h.level i →
    h.upperOffsets.getD i 0 = (h.nodeLevel.take i).sum * h.upperStride
  count_le : ∀ i l, h.HasBlock i l →
    blockCount (h.linkArray l) (h.linkPos i l) ≤ h.config.maxNeighbours l

section Places
variable {h : HnswIndex} {i j l k : Nat}

theorem linkPos_eq (hL : h.Layout) (hb : h.HasBlock i l) :
    h.linkPos i l = h.blockIndex i l * h.stride l := by
  unfold linkPos blockIndex stride
  by_cases hl : l = 0
  · subst hl
    rfl
  · have hlev : 0 < h.level i := by
      have := hb.2
      omega
    simp only [hl, if_false, hL.offset i hb.1 hlev, HnswConfig.maxNeighbours, upperStride]
    ring

/-- The block lies inside its array. -/
theorem linkPos_add_stride_le (hL : h.Layout) (hb : h.HasBlock i l) :
    h.linkPos i l + h.stride l ≤ (h.linkArray l).length := by
  rw [linkPos_eq hL hb, ← Nat.succ_mul]
  have hi := hb.1
  by_cases hl : l = 0
  · subst hl
    simp only [linkArray, if_true, hL.layer0_length, blockIndex]
    exact Nat.mul_le_mul_right _ hi
  · simp only [linkArray, hl, if_false, hL.upper_length, blockIndex]
    have hsum : (h.nodeLevel.take i).sum + h.level i ≤ (h.nodeLevel.take h.nodeCount).sum :=
      sum_take_add_le hi le_rfl
    have hle := hb.2
    simp only [nodeCount, List.take_length] at hsum
    have hstride : h.stride l = h.upperStride := by simp [stride, HnswConfig.maxNeighbours, hl,
      upperStride]
    rw [hstride]
    exact Nat.mul_le_mul_right _ (by omega)

/-- Distinct blocks of one array have distinct places in it. -/
theorem blockIndex_ne (hb : h.HasBlock i l) (hc : h.HasBlock j k) (hne : (i, l) ≠ (j, k))
    (hlk : l = 0 ↔ k = 0) : h.blockIndex i l ≠ h.blockIndex j k := by
  unfold blockIndex
  by_cases hl : l = 0
  · have hk := hlk.mp hl
    simp only [hl, hk, if_true]
    intro he
    exact hne (by rw [he, hl, hk])
  · have hk : k ≠ 0 := fun hk => hl (hlk.mpr hk)
    simp only [hl, hk, if_false]
    have hbl := hb.2
    have hck := hc.2
    have hjn : j ≤ h.nodeLevel.length := hc.1.le
    have hin : i ≤ h.nodeLevel.length := hb.1.le
    rcases Nat.lt_trichotomy i j with hij | hij | hij
    · have := sum_take_add_le hij hjn
      simp only [level] at hbl
      omega
    · subst hij
      intro he
      exact hne (by rw [show l = k by omega])
    · have := sum_take_add_le hij hin
      simp only [level] at hck
      omega

/-- Distinct blocks of one array do not overlap. -/
theorem blocks_disjoint (hL : h.Layout) (hb : h.HasBlock i l) (hc : h.HasBlock j k)
    (hne : (i, l) ≠ (j, k)) (hlk : l = 0 ↔ k = 0) :
    h.linkPos i l + h.stride l ≤ h.linkPos j k ∨ h.linkPos j k + h.stride k ≤ h.linkPos i l := by
  have hstride : h.stride l = h.stride k := by
    simp only [stride, HnswConfig.maxNeighbours, hlk]
  have hidx := blockIndex_ne hb hc hne hlk
  rw [linkPos_eq hL hb, linkPos_eq hL hc, hstride, ← Nat.succ_mul, ← Nat.succ_mul]
  rcases Nat.lt_or_gt_of_ne hidx with hlt | hlt
  · exact .inl (Nat.mul_le_mul_right _ hlt)
  · exact .inr (Nat.mul_le_mul_right _ hlt)

/-- Each block has a place of its own inside its array, wherever that is. -/
structure Placed (h : HnswIndex) : Prop where
  offsets_length : h.upperOffsets.length = h.nodeCount
  layer0_length : h.layer0Links.length = h.nodeCount * h.layer0Stride
  inside : ∀ i l, h.HasBlock i l → h.linkPos i l + h.stride l ≤ (h.linkArray l).length
  disjoint : ∀ i l j k, h.HasBlock i l → h.HasBlock j k → (i, l) ≠ (j, k) → (l = 0 ↔ k = 0) →
    h.linkPos i l + h.stride l ≤ h.linkPos j k ∨ h.linkPos j k + h.stride k ≤ h.linkPos i l
  count_le : ∀ i l, h.HasBlock i l →
    blockCount (h.linkArray l) (h.linkPos i l) ≤ h.config.maxNeighbours l

theorem Layout.placed (hL : h.Layout) : h.Placed :=
  ⟨hL.offsets_length, hL.layer0_length, fun _ _ => linkPos_add_stride_le hL,
    fun _ _ _ _ => blocks_disjoint hL, hL.count_le⟩

theorem neighbours_of_hasBlock (hb : h.HasBlock i l) : h.neighbours i l = h.block i l := by
  unfold neighbours
  rw [if_neg (by have := hb.1; omega), if_neg (by have := hb.2; omega)]

theorem neighbours_of_not_hasBlock (hb : ¬ h.HasBlock i l) : h.neighbours i l = [] := by
  unfold neighbours
  by_cases h1 : h.nodeCount ≤ i
  · rw [if_pos h1]
  · rw [if_neg h1, if_pos]
    by_contra h2
    exact hb ⟨by omega, by omega⟩

end Places

section Fields
variable (h : HnswIndex) (l : Nat) (a : List LocalId)

@[simp] theorem withLinkArray_config : (h.withLinkArray l a).config = h.config := by
  unfold withLinkArray; split <;> rfl
@[simp] theorem withLinkArray_metric : (h.withLinkArray l a).metric = h.metric := by
  unfold withLinkArray; split <;> rfl
@[simp] theorem withLinkArray_nodeLevel : (h.withLinkArray l a).nodeLevel = h.nodeLevel := by
  unfold withLinkArray; split <;> rfl
@[simp] theorem withLinkArray_upperOffsets :
    (h.withLinkArray l a).upperOffsets = h.upperOffsets := by
  unfold withLinkArray; split <;> rfl
@[simp] theorem withLinkArray_entryPoint : (h.withLinkArray l a).entryPoint = h.entryPoint := by
  unfold withLinkArray; split <;> rfl
@[simp] theorem withLinkArray_maxLevel : (h.withLinkArray l a).maxLevel = h.maxLevel := by
  unfold withLinkArray; split <;> rfl
@[simp] theorem withLinkArray_liveCount : (h.withLinkArray l a).liveCount = h.liveCount := by
  unfold withLinkArray; split <;> rfl
@[simp] theorem withLinkArray_rng : (h.withLinkArray l a).rng = h.rng := by
  unfold withLinkArray; split <;> rfl

theorem withLinkArray_linkArray (k : Nat) :
    (h.withLinkArray l a).linkArray k = if (l = 0 ↔ k = 0) then a else h.linkArray k := by
  unfold withLinkArray linkArray
  by_cases hl : l = 0 <;> by_cases hk : k = 0 <;> simp [hl, hk]

end Fields

/-- Everything but the neighbour lists is the same. -/
structure SameNodes (h g : HnswIndex) : Prop where
  metric : g.metric = h.metric
  config : g.config = h.config
  nodeLevel : g.nodeLevel = h.nodeLevel
  upperOffsets : g.upperOffsets = h.upperOffsets
  entryPoint : g.entryPoint = h.entryPoint
  maxLevel : g.maxLevel = h.maxLevel
  liveCount : g.liveCount = h.liveCount
  rng : g.rng = h.rng

namespace SameNodes
variable {h g f : HnswIndex}

theorem refl (h : HnswIndex) : SameNodes h h := ⟨rfl, rfl, rfl, rfl, rfl, rfl, rfl, rfl⟩

theorem trans (hg : SameNodes h g) (gf : SameNodes g f) : SameNodes h f :=
  ⟨gf.metric.trans hg.metric, gf.config.trans hg.config, gf.nodeLevel.trans hg.nodeLevel,
    gf.upperOffsets.trans hg.upperOffsets, gf.entryPoint.trans hg.entryPoint,
    gf.maxLevel.trans hg.maxLevel, gf.liveCount.trans hg.liveCount, gf.rng.trans hg.rng⟩

theorem nodeCount (s : SameNodes h g) : g.nodeCount = h.nodeCount := by
  simp [HnswIndex.nodeCount, s.nodeLevel]

theorem level (s : SameNodes h g) (i : LocalId) : g.level i = h.level i := by
  simp [HnswIndex.level, s.nodeLevel]

theorem hasBlock (s : SameNodes h g) (i l : Nat) : g.HasBlock i l ↔ h.HasBlock i l := by
  simp [HasBlock, s.nodeCount, s.level]

theorem linkPos (s : SameNodes h g) (i l : Nat) : g.linkPos i l = h.linkPos i l := by
  simp [HnswIndex.linkPos, s.upperOffsets, layer0Stride, upperStride, s.config]

end SameNodes

/-- `g` is `h` with the list of one block replaced by `ids`. -/
structure Relinked (h g : HnswIndex) (node layer : Nat) (ids : List LocalId) : Prop where
  layout : g.Layout
  same : SameNodes h g
  block : g.block node layer = ids
  frame : ∀ j k, h.HasBlock j k → (node, layer) ≠ (j, k) → g.block j k = h.block j k

theorem withLinkArray_sameNodes (h : HnswIndex) (l : Nat) (a : List LocalId) :
    SameNodes h (h.withLinkArray l a) := by
  constructor <;> simp

theorem setNeighbours_sameNodes (h : HnswIndex) (i l : Nat) (ids : List LocalId) :
    SameNodes h (h.setNeighbours i l ids) := withLinkArray_sameNodes h l _

/-- The same where the blocks may be anywhere. -/
structure Rewritten (h g : HnswIndex) (node layer : Nat) (ids : List LocalId) : Prop where
  placed : g.Placed
  same : SameNodes h g
  block : g.block node layer = ids
  frame : ∀ j k, h.HasBlock j k → (node, layer) ≠ (j, k) → g.block j k = h.block j k

section Write
variable {h : HnswIndex} {i l : Nat}

/-- An array that is rewritten in place keeps its length, and so does the other. -/
theorem length_withLinkArray (h : HnswIndex) {l : Nat} {a : List LocalId}
    (ha : a.length = (h.linkArray l).length) (k : Nat) :
    ((h.withLinkArray l a).linkArray k).length = (h.linkArray k).length := by
  rw [withLinkArray_linkArray]
  split
  next hlk => rw [ha, linkArray, linkArray, if_congr hlk rfl rfl]
  next => rfl

/-- Any change of the array inside one block that leaves its count in bounds. -/
theorem Placed.rewritten (hP : h.Placed) (hb : h.HasBlock i l) {a : List LocalId}
    (hlen : a.length = (h.linkArray l).length)
    (hout : ∀ j, j < h.linkPos i l ∨ h.linkPos i l + h.stride l ≤ j → a[j]? = (h.linkArray l)[j]?)
    (hcount : blockCount a (h.linkPos i l) ≤ h.config.maxNeighbours l) :
    Rewritten h (h.withLinkArray l a) i l (readBlock a (h.linkPos i l)) := by
  have hs := withLinkArray_sameNodes h l a
  have hlength := length_withLinkArray h hlen
  have hstride : ∀ k, (h.withLinkArray l a).stride k = h.stride k := fun k => by
    rw [stride, hs.config, stride]
  have hother : ∀ j k, h.HasBlock j k → (i, l) ≠ (j, k) →
      ∀ p, h.linkPos j k ≤ p → p < h.linkPos j k + h.stride k →
        ((h.withLinkArray l a).linkArray k)[p]? = (h.linkArray k)[p]? := by
    intro j k hc hne p hp1 hp2
    rw [withLinkArray_linkArray]
    split
    next hlk =>
      have harray : h.linkArray k = h.linkArray l := by simp only [linkArray, hlk]
      rw [harray]
      rcases hP.disjoint i l j k hb hc hne hlk with hd | hd
      · exact hout p (.inr (by omega))
      · exact hout p (.inl (by omega))
    next => rfl
  refine ⟨⟨?_, ?_, ?_, ?_, ?_⟩, hs, ?_, ?_⟩
  · rw [hs.upperOffsets, hs.nodeCount]
    exact hP.offsets_length
  · rw [hs.nodeCount, layer0Stride, hs.config]
    exact (hlength 0).trans hP.layer0_length
  · intro j k hc
    rw [hs.hasBlock] at hc
    rw [hs.linkPos, hstride, hlength]
    exact hP.inside j k hc
  · intro j k m n hc hd hne hkn
    rw [hs.hasBlock] at hc hd
    rw [hs.linkPos, hs.linkPos, hstride, hstride]
    exact hP.disjoint j k m n hc hd hne hkn
  · intro j k hc
    rw [hs.hasBlock] at hc
    rw [hs.linkPos, hs.config]
    by_cases hne : (i, l) = (j, k)
    · cases hne
      rwa [withLinkArray_linkArray, if_pos Iff.rfl]
    · rw [blockCount_congr (hother j k hc hne _ le_rfl (by simp [stride]))]
      exact hP.count_le j k hc
  · simp [block, hs.linkPos, withLinkArray_linkArray]
  · intro j k hc hne
    unfold block
    rw [hs.linkPos]
    refine readBlock_congr (h.stride k) ?_ (hother j k hc hne)
    exact Nat.lt_succ_of_le (hP.count_le j k hc)

theorem setNeighbours_rewritten (hP : h.Placed) (hb : h.HasBlock i l) {ids : List LocalId}
    (hids : ids.length ≤ h.config.maxNeighbours l) :
    Rewritten h (h.setNeighbours i l ids) i l ids := by
  have hin := hP.inside i l hb
  simp only [stride] at hin
  have hr := hP.rewritten hb (a := writeBlock (h.linkArray l) (h.linkPos i l) ids) (by simp)
    (fun j hj => getElem?_writeBlock_outside (by simp only [stride] at hj; omega))
    (by rw [blockCount_writeBlock (by omega)]; exact hids)
  rwa [readBlock_writeBlock (by omega)] at hr

theorem pushBlock_rewritten (hP : h.Placed) (hb : h.HasBlock i l) {target : LocalId}
    (hroom : blockCount (h.linkArray l) (h.linkPos i l) < h.config.maxNeighbours l) :
    Rewritten h (h.withLinkArray l (pushBlock (h.linkArray l) (h.linkPos i l) target)) i l
      (h.block i l ++ [target]) := by
  have hin := hP.inside i l hb
  simp only [stride] at hin
  have hr := hP.rewritten hb (a := pushBlock (h.linkArray l) (h.linkPos i l) target) (by simp)
    (fun j hj => getElem?_pushBlock_outside (by simp only [stride] at hj; omega))
    (by rw [blockCount_pushBlock (by omega)]; omega)
  rwa [readBlock_pushBlock (by omega)] at hr

/-- Offsets and lengths take no part in a change of the lists. -/
theorem Rewritten.relinked {g : HnswIndex} {ids : List LocalId} (hr : Rewritten h g i l ids)
    (hL : h.Layout) (hlength : ∀ k, (g.linkArray k).length = (h.linkArray k).length) :
    Relinked h g i l ids := by
  have hs := hr.same
  refine ⟨⟨hr.placed.offsets_length, hr.placed.layer0_length, ?_, ?_, hr.placed.count_le⟩, hs,
    hr.block, hr.frame⟩
  · rw [hs.nodeLevel, upperStride, hs.config]
    exact (hlength 1).trans hL.upper_length
  · intro j hj hlev
    rw [hs.nodeCount] at hj
    rw [hs.level] at hlev
    rw [hs.upperOffsets, hs.nodeLevel, upperStride, hs.config]
    exact hL.offset j hj hlev

theorem setNeighbours_relinked (hL : h.Layout) (hb : h.HasBlock i l) {ids : List LocalId}
    (hids : ids.length ≤ h.config.maxNeighbours l) :
    Relinked h (h.setNeighbours i l ids) i l ids :=
  (setNeighbours_rewritten hL.placed hb hids).relinked hL (length_withLinkArray h (by simp))

theorem pushBlock_relinked (hL : h.Layout) (hb : h.HasBlock i l) {target : LocalId}
    (hroom : blockCount (h.linkArray l) (h.linkPos i l) < h.config.maxNeighbours l) :
    Relinked h (h.withLinkArray l (pushBlock (h.linkArray l) (h.linkPos i l) target)) i l
      (h.block i l ++ [target]) :=
  (pushBlock_rewritten hL.placed hb hroom).relinked hL (length_withLinkArray h (by simp))

end Write

end HnswIndex

end VectorDb.Index
