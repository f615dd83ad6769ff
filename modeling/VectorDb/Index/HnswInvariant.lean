import VectorDb.Index.HnswSearch

/-!
The representation invariant of the graph, kept by every `add` whatever the
distances and the levels drawn.
-/
set_option autoImplicit false

namespace VectorDb.Index

open VectorDb.Lib

namespace HnswIndex

/-- Every list is duplicate-free, leaves out its own node and names only nodes
that reach its layer. -/
structure Graph (h : HnswIndex) : Prop where
  layout : h.Layout
  nodup : ∀ i l, h.HasBlock i l → (h.block i l).Nodup
  irrefl : ∀ i l, h.HasBlock i l → i ∉ h.block i l
  reaches : ∀ i l, h.HasBlock i l → ∀ j ∈ h.block i l, h.HasBlock j l

/-- No list of the layer names the node yet. -/
def Unlinked (h : HnswIndex) (id layer : Nat) : Prop :=
  ∀ i, h.HasBlock i layer → id ∉ h.block i layer

/-- The nodes a search below a half-inserted node may meet. -/
def Others (h : HnswIndex) (id layer : Nat) (i : Nat) : Prop := h.HasBlock i layer ∧ i ≠ id

section Graph
variable {h g : HnswIndex} {i l id : Nat} {ids : List LocalId}

theorem Graph.closedAt_others (hG : h.Graph) (hu : h.Unlinked id l) :
    h.ClosedAt l (h.Others id l) := by
  rintro i ⟨hb, -⟩ j hj
  rw [neighbours_of_hasBlock hb] at hj
  refine ⟨hG.reaches i l hb j hj, ?_⟩
  rintro rfl
  exact hu i hb hj

/-- Replacing one list by another that is as good. -/
theorem Graph.relinked (hG : h.Graph) (hr : Relinked h g i l ids) (hnd : ids.Nodup)
    (hirr : i ∉ ids) (hreach : ∀ j ∈ ids, h.HasBlock j l) : g.Graph := by
  have hblock : ∀ j k, h.HasBlock j k →
      (g.block j k = ids ∧ i = j ∧ l = k) ∨ g.block j k = h.block j k := by
    intro j k hb
    by_cases hne : (i, l) = (j, k)
    · cases hne
      exact .inl ⟨hr.block, rfl, rfl⟩
    · exact .inr (hr.frame j k hb hne)
  refine ⟨hr.layout, ?_, ?_, ?_⟩
  · intro j k hb
    rw [hr.same.hasBlock] at hb
    rcases hblock j k hb with ⟨he, rfl, rfl⟩ | he
    · rwa [he]
    · rw [he]
      exact hG.nodup j k hb
  · intro j k hb
    rw [hr.same.hasBlock] at hb
    rcases hblock j k hb with ⟨he, rfl, rfl⟩ | he
    · rwa [he]
    · rw [he]
      exact hG.irrefl j k hb
  · intro j k hb m hm
    rw [hr.same.hasBlock] at hb ⊢
    rcases hblock j k hb with ⟨he, rfl, rfl⟩ | he
    · rw [he] at hm
      exact hreach m hm
    · rw [he] at hm
      exact hG.reaches j k hb m hm

end Graph

section Link
variable {K : Type} [BEq K] [LT K] [DecidableLT K]
variable (std : StdAlgorithms (Candidate K)) (between : LocalId → LocalId → K)
variable {h : HnswIndex} {i l id : Nat}

theorem link_sameNodes (h : HnswIndex) (i id l : Nat) :
    SameNodes h (h.link std between i id l) := by
  unfold link
  dsimp only
  split
  · exact withLinkArray_sameNodes h l _
  · exact setNeighbours_sameNodes h i l _

theorem length_link (h : HnswIndex) (i id l k : Nat) :
    ((h.link std between i id l).linkArray k).length = (h.linkArray k).length := by
  unfold link
  dsimp only
  split
  · exact length_withLinkArray h (by simp) k
  · exact length_withLinkArray h (by simp) k

theorem length_linkAll (chosen : List LocalId) (h : HnswIndex) (id l k : Nat) :
    ((chosen.foldl (fun h j => h.link std between j id l) h).linkArray k).length =
      (h.linkArray k).length := by
  induction chosen generalizing h with
  | nil => rfl
  | cons j chosen ih => exact (ih _).trans (length_link std between h j id l k)

theorem linkAll_sameNodes (chosen : List LocalId) (h : HnswIndex) (id l : Nat) :
    SameNodes h (chosen.foldl (fun h j => h.link std between j id l) h) := by
  induction chosen generalizing h with
  | nil => exact .refl h
  | cons j chosen ih => exact (link_sameNodes std between h j id l).trans (ih _)

/-- `link` rewrites one list, with old neighbours and the new one only. -/
theorem link_relinked (hG : h.Graph) (hb : h.HasBlock i l) (hnew : id ∉ h.block i l) :
    ∃ ids, Relinked h (h.link std between i id l) i l ids ∧ ids.Nodup ∧
      ∀ j ∈ ids, j ∈ h.block i l ∨ j = id := by
  by_cases hroom : blockCount (h.linkArray l) (h.linkPos i l) < h.config.maxNeighbours l
  · refine ⟨h.block i l ++ [id], ?_, ?_, fun j hj => by simpa using hj⟩
    · rw [link, if_pos hroom]
      exact pushBlock_relinked hG.layout hb hroom
    · rw [List.nodup_append]
      refine ⟨hG.nodup i l hb, by simp, fun a ha b hb hab => hnew ?_⟩
      rw [List.mem_singleton] at hb
      rwa [← hb, ← hab]
  · let candidates : List (Candidate K) := (h.block i l ++ [id]).map fun j => ⟨j, between i j⟩
    have hids : candidates.map Candidate.localId = h.block i l ++ [id] := by
      simp [candidates, Function.comp_def]
    have hnd : (candidates.map Candidate.localId).Nodup := by
      rw [hids, List.nodup_append]
      refine ⟨hG.nodup i l hb, by simp, fun a ha b hb hab => hnew ?_⟩
      rw [List.mem_singleton] at hb
      rwa [← hb, ← hab]
    obtain ⟨hn, hlen, hmem, -⟩ :=
      selectNeighbours_spec std between candidates (h.config.maxNeighbours l)
    refine ⟨_, ?_, hn hnd, fun j hj => by simpa [hids] using hmem j hj⟩
    rw [link, if_neg hroom]
    exact setNeighbours_relinked hG.layout hb hlen

/-- The reverse edges of one layer: the lists of other layers and other nodes stay. -/
theorem linkAll_graph (hG : h.Graph) {chosen : List LocalId} (hnd : chosen.Nodup)
    (hid : h.HasBlock id l) (hc : ∀ j ∈ chosen, h.Others id l j ∧ id ∉ h.block j l) :
    let g := chosen.foldl (fun h j => h.link std between j id l) h
    g.Graph ∧ SameNodes h g ∧
      ∀ j k, h.HasBlock j k → (k ≠ l ∨ j ∉ chosen) → g.block j k = h.block j k := by
  induction chosen generalizing h with
  | nil => exact ⟨hG, .refl h, fun _ _ _ _ => rfl⟩
  | cons i chosen ih =>
    obtain ⟨hi, hnd⟩ := List.nodup_cons.mp hnd
    obtain ⟨⟨hb, hne⟩, hnew⟩ := hc i (by simp)
    obtain ⟨ids, hr, hids, hmem⟩ := link_relinked std between hG hb hnew
    have hG' : (h.link std between i id l).Graph := by
      refine hG.relinked hr hids (fun hi => ?_) (fun j hj => ?_)
      · rcases hmem i hi with h1 | h1
        · exact hG.irrefl i l hb h1
        · exact hne h1
      · rcases hmem j hj with h1 | rfl
        · exact hG.reaches i l hb j h1
        · exact hid
    obtain ⟨hg, hs, hf⟩ := ih hG' hnd ((hr.same.hasBlock id l).mpr hid) (by
      intro j hj
      obtain ⟨⟨hbj, hnej⟩, hnewj⟩ := hc j (by simp [hj])
      refine ⟨⟨(hr.same.hasBlock j l).mpr hbj, hnej⟩, ?_⟩
      rwa [hr.frame j l hbj (fun he => hi (by cases he; exact hj))])
    refine ⟨hg, hr.same.trans hs, fun j k hbj hk => ?_⟩
    refine (hf j k ((hr.same.hasBlock j k).mpr hbj) ?_).trans (hr.frame j k hbj fun he => ?_)
    · exact hk.imp_right fun hj hin => hj (by simp [hin])
    · cases he
      simp at hk

end Link

section Wire
variable {K : Type} [BEq K] [LT K] [DecidableLT K]
variable (std : StdAlgorithms (Candidate K)) (view : SlotView K)
variable {h : HnswIndex} {l id : Nat} {entries : List LocalId}

theorem wireLayer_sameNodes (id : Nat) (h : HnswIndex) (l : Nat) (entries : List LocalId) :
    SameNodes h (wireLayer std view id h l entries).1 :=
  (setNeighbours_sameNodes h id l _).trans (linkAll_sameNodes std view.key _ _ id l)

theorem wireLayers_sameNodes (id n : Nat) (h : HnswIndex) (entries : List LocalId) :
    SameNodes h (wireLayers std view id n h entries) := by
  induction n generalizing h entries with
  | zero => exact .refl h
  | succ n ih => exact (wireLayer_sameNodes std view id h n entries).trans (ih _ _)

theorem length_wireLayers (id n : Nat) (h : HnswIndex) (entries : List LocalId) (k : Nat) :
    ((wireLayers std view id n h entries).linkArray k).length = (h.linkArray k).length := by
  induction n generalizing h entries with
  | zero => rfl
  | succ n ih =>
    exact (ih _ _).trans ((length_linkAll std view.key _ _ id n k).trans
      (length_withLinkArray h (by simp) k))

theorem wireLayer_graph (hG : h.Graph) (hid : h.HasBlock id l) (hu : h.Unlinked id l)
    (he : ∀ e ∈ entries, h.Others id l e) :
    let r := wireLayer std view id h l entries
    r.1.Graph ∧ SameNodes h r.1 ∧
      (∀ j k, h.HasBlock j k → k ≠ l → r.1.block j k = h.block j k) ∧
      ∀ e ∈ r.2, h.Others id l e := by
  let found := searchLayer std h (view.key id) entries h.config.efConstruction l
  have hmem : ∀ c ∈ found, h.Others id l c.localId := fun c hc =>
    (searchLayer_mem h.config.efConstruction (hG.closedAt_others hu) he hc).1
  obtain ⟨hselect, hlen, hsub, hperm⟩ :=
    selectNeighbours_spec std view.key found (h.config.maxNeighbours l)
  have hn := hselect (searchLayer_nodup std h (view.key id) entries h.config.efConstruction l)
  let chosen := (selectNeighbours std view.key found (h.config.maxNeighbours l)).1
  have hchosen : ∀ j ∈ chosen, h.Others id l j := by
    intro j hj
    obtain ⟨c, hc, rfl⟩ := List.mem_map.mp (hsub j hj)
    exact hmem c hc
  have hr : Relinked h (h.setNeighbours id l chosen) id l chosen :=
    setNeighbours_relinked hG.layout hid hlen
  have hG' : (h.setNeighbours id l chosen).Graph :=
    hG.relinked hr hn (fun hj => (hchosen id hj).2 rfl) (fun j hj => (hchosen j hj).1)
  obtain ⟨hg, hs, hf⟩ := linkAll_graph std view.key hG' hn
    ((hr.same.hasBlock id l).mpr hid) (by
      intro j hj
      obtain ⟨hb, hne⟩ := hchosen j hj
      refine ⟨⟨(hr.same.hasBlock j l).mpr hb, hne⟩, ?_⟩
      rw [hr.frame j l hb (fun he => hne (by cases he; rfl))]
      exact hu j hb)
  refine ⟨hg, hr.same.trans hs, fun j k hb hk => ?_, fun e he => ?_⟩
  · exact (hf j k ((hr.same.hasBlock j k).mpr hb) (.inl hk)).trans
      (hr.frame j k hb (fun he => hk (by cases he; rfl)))
  · obtain ⟨c, hc, rfl⟩ := List.mem_map.mp he
    exact hmem c (hperm.mem_iff.mp hc)

/-- The wiring of all layers from `n - 1` down. -/
theorem wireLayers_graph (n : Nat) (hG : h.Graph) (hid : ∀ k < n, h.HasBlock id k)
    (hu : ∀ k < n, h.Unlinked id k) (he : ∀ k < n, ∀ e ∈ entries, h.Others id k e) :
    (wireLayers std view id n h entries).Graph ∧
      SameNodes h (wireLayers std view id n h entries) := by
  induction n generalizing h entries with
  | zero => exact ⟨hG, .refl h⟩
  | succ n ih =>
    obtain ⟨hg, hs, hf, hentries⟩ := wireLayer_graph std view hG
      (hid n (by omega)) (hu n (by omega)) (he n (by omega))
    obtain ⟨hgg, hss⟩ := ih hg (fun k hk => (hs.hasBlock id k).mpr (hid k (by omega)))
      (fun k hk i hb => by
        rw [hs.hasBlock] at hb
        rw [hf i k hb (by omega)]
        exact hu k (by omega) i hb)
      (fun k hk e he => by
        obtain ⟨hb, hne⟩ := hentries e he
        exact ⟨(hs.hasBlock e k).mpr (hb.mono (by omega)), hne⟩)
    exact ⟨hgg, hs.trans hss⟩

end Wire

section Grow
variable {h : HnswIndex}

/-- Zeroing the counts of consecutive blocks. -/
theorem zeroCounts_spec (base w n : Nat) (a : List Nat) :
    let b := (List.range n).foldl (fun a i => a.set (base + i * w) 0) a
    b.length = a.length ∧ (∀ j, j < base → b[j]? = a[j]?) ∧
      (0 < w → ∀ i < n, base + i * w < a.length → blockCount b (base + i * w) = 0) := by
  induction n with
  | zero => simp
  | succ n ih =>
    obtain ⟨hlen, hlow, hzero⟩ := ih
    simp only [List.range_succ, List.foldl_append, List.foldl_cons, List.foldl_nil]
    refine ⟨by simp [hlen], fun j hj => ?_, fun hw i hi hin => ?_⟩
    · rw [List.getElem?_set_ne (by omega)]
      exact hlow j hj
    · by_cases he : i = n
      · subst he
        simp [blockCount, hlen, hin]
      · have hlt : i < n := by omega
        have hmul : i * w < n * w := Nat.mul_lt_mul_of_pos_right hlt hw
        have hne : base + n * w ≠ base + i * w := by omega
        exact (blockCount_congr (List.getElem?_set_ne hne)).trans (hzero hw i hlt hin)

/-- `g` is `h` with one node more, which has an empty list on each of its layers. -/
structure Grown (h g : HnswIndex) (level : Nat) : Prop where
  layout : g.Layout
  metric : g.metric = h.metric
  config : g.config = h.config
  nodeLevel : g.nodeLevel = h.nodeLevel ++ [level]
  entryPoint : g.entryPoint = h.entryPoint
  maxLevel : g.maxLevel = h.maxLevel
  liveCount : g.liveCount = h.liveCount + 1
  rng : g.rng = h.rng
  old : ∀ i l, h.HasBlock i l → g.block i l = h.block i l
  new : ∀ l ≤ level, g.block h.nodeCount l = []

namespace Grown
variable {g : HnswIndex} {level : Nat} (hg : Grown h g level)
include hg

theorem nodeCount : g.nodeCount = h.nodeCount + 1 := by
  simp [HnswIndex.nodeCount, hg.nodeLevel]

theorem level_old {i : Nat} (hi : i < h.nodeCount) : g.level i = h.level i := by
  simp only [HnswIndex.level, hg.nodeLevel, List.getD_eq_getElem?_getD]
  rw [List.getElem?_append_left hi]

theorem level_new : g.level h.nodeCount = level := by
  simp [HnswIndex.level, hg.nodeLevel, HnswIndex.nodeCount]

theorem hasBlock_iff (i l : Nat) :
    g.HasBlock i l ↔ h.HasBlock i l ∨ (i = h.nodeCount ∧ l ≤ level) := by
  unfold HasBlock
  rw [hg.nodeCount]
  by_cases hi : i < h.nodeCount
  · simp [hg.level_old hi, hi, show i < h.nodeCount + 1 by omega, Nat.ne_of_lt hi]
  · by_cases he : i = h.nodeCount
    · subst he
      simp [hg.level_new]
    · simp [hi, he, show ¬ i < h.nodeCount + 1 by omega]

end Grown

section GrowFields
variable {narrow : Nat → Nat} {level : Nat}

theorem grow_nodeLevel (narrow : Nat → Nat) (hlevel : level ≤ 254) :
    (h.grow narrow level).nodeLevel = h.nodeLevel ++ [level] := by
  simp [grow, show level % 256 = level by omega]

theorem grow_hasBlock (hlevel : level ≤ 254) {i l : Nat} (hb : (h.grow narrow level).HasBlock i l) :
    h.HasBlock i l ∨ (i = h.nodeCount ∧ l ≤ level) := by
  obtain ⟨hi, hl⟩ := hb
  simp only [nodeCount, HnswIndex.level, grow_nodeLevel narrow hlevel, List.length_append,
    List.length_singleton, List.getD_eq_getElem?_getD] at hi hl
  by_cases hlt : i < h.nodeLevel.length
  · rw [List.getElem?_append_left hlt] at hl
    exact .inl ⟨hlt, by simpa [HnswIndex.level] using hl⟩
  · have he : i = h.nodeLevel.length := by omega
    subst he
    exact .inr ⟨rfl, by simpa using hl⟩

theorem length_grow_linkArray (l : Nat) :
    ((h.grow narrow level).linkArray l).length =
      (h.linkArray l).length + (if l = 0 then 1 else level) * h.stride l := by
  by_cases hzero : l = 0
  · simp [linkArray, hzero, grow, stride, HnswConfig.maxNeighbours, layer0Stride]
  · simp only [linkArray, hzero, if_false, grow]
    rw [(zeroCounts_spec (narrow h.upperLinks.length) h.upperStride level _).1]
    simp [stride, HnswConfig.maxNeighbours, hzero, upperStride]

variable (hP : h.Placed)
include hP

theorem grow_offset_old {i : Nat} (hi : i < h.nodeCount) :
    (h.grow narrow level).upperOffsets.getD i 0 = h.upperOffsets.getD i 0 := by
  simp only [grow, List.getD_eq_getElem?_getD]
  rw [List.getElem?_append_left (by rw [hP.offsets_length]; exact hi)]

theorem grow_offset_new (hpos : 0 < level) :
    (h.grow narrow level).upperOffsets.getD h.nodeCount 0 = narrow h.upperLinks.length := by
  simp [grow, hpos, ← hP.offsets_length]

theorem grow_linkPos_old {i l : Nat} (hb : h.HasBlock i l) :
    (h.grow narrow level).linkPos i l = h.linkPos i l := by
  simp only [linkPos, grow_offset_old hP hb.1]
  rfl

variable (hnarrow : narrow h.upperLinks.length = h.upperLinks.length)
include hnarrow

/-- An old block lies before what was appended. -/
theorem grow_linkArray_old {i l j : Nat} (hb : h.HasBlock i l)
    (hj : j < h.linkPos i l + h.stride l) :
    ((h.grow narrow level).linkArray l)[j]? = (h.linkArray l)[j]? := by
  have hin := hP.inside i l hb
  by_cases hl : l = 0
  · subst hl
    simp only [linkArray, if_true] at hin ⊢
    have hne : h.nodeCount * h.layer0Stride ≠ j := by
      rw [← hP.layer0_length]
      omega
    simp only [grow]
    rw [List.getElem?_set_ne hne, List.getElem?_append_left (by omega)]
  · simp only [linkArray, hl, if_false] at hin ⊢
    simp only [grow, hnarrow]
    rw [(zeroCounts_spec h.upperLinks.length h.upperStride level _).2.1 j (by omega),
      List.getElem?_append_left (by omega)]

theorem grow_blockCount_new {l : Nat} (hl : l ≤ level) :
    blockCount ((h.grow narrow level).linkArray l) ((h.grow narrow level).linkPos h.nodeCount l) =
      0 := by
  by_cases hl0 : l = 0
  · subst hl0
    change blockCount ((h.layer0Links ++ List.replicate h.layer0Stride kInvalidLocalId).set
      (h.nodeCount * h.layer0Stride) 0) (h.nodeCount * h.layer0Stride) = 0
    simp [blockCount, hP.layer0_length, layer0Stride]
  · have hs1 : 0 < h.upperStride := Nat.succ_pos _
    have hp : (h.grow narrow level).linkPos h.nodeCount l =
        h.upperLinks.length + (l - 1) * h.upperStride := by
      simp only [linkPos, hl0, if_false, grow_offset_new hP (show 0 < level by omega), hnarrow]
      rfl
    have hmul : (l - 1) * h.upperStride < level * h.upperStride :=
      Nat.mul_lt_mul_of_pos_right (by omega) hs1
    rw [hp]
    simp only [linkArray, hl0, if_false, grow, hnarrow]
    exact (zeroCounts_spec h.upperLinks.length h.upperStride level _).2.2 hs1 (l - 1) (by omega)
      (by simp; omega)

/-- An old block is where it was, and a new one where nothing was before. -/
theorem grow_linkPos_cases (hlevel : level ≤ 254) {i l : Nat}
    (hb : (h.grow narrow level).HasBlock i l) :
    (h.HasBlock i l ∧ (h.grow narrow level).linkPos i l = h.linkPos i l ∧
        h.linkPos i l + h.stride l ≤ (h.linkArray l).length) ∨
      (i = h.nodeCount ∧ l ≤ level ∧
        (h.grow narrow level).linkPos i l = (h.linkArray l).length + (l - 1) * h.stride l) := by
  rcases grow_hasBlock hlevel hb with hb | ⟨rfl, hl⟩
  · exact .inl ⟨hb, grow_linkPos_old hP hb, hP.inside i l hb⟩
  · refine .inr ⟨rfl, hl, ?_⟩
    by_cases hzero : l = 0
    · subst hzero
      simp only [linkPos, linkArray, if_true, hP.layer0_length, Nat.zero_sub, Nat.zero_mul]
      rfl
    · simp only [linkPos, linkArray, hzero, if_false, stride, HnswConfig.maxNeighbours,
        grow_offset_new hP (show 0 < level by omega), hnarrow]
      rfl

theorem grow_placed (hlevel : level ≤ 254) : (h.grow narrow level).Placed := by
  have hnodes := grow_nodeLevel narrow (h := h) hlevel
  have hstride : ∀ l, (h.grow narrow level).stride l = h.stride l := fun _ => rfl
  refine ⟨?_, ?_, ?_, ?_, ?_⟩
  · simp [nodeCount, grow, hP.offsets_length]
  · simp only [nodeCount, hnodes, List.length_append, List.length_singleton, Nat.succ_mul]
    simp only [grow, List.length_set, List.length_append, List.length_replicate,
      hP.layer0_length, nodeCount]
    rfl
  · intro i l hb
    rw [length_grow_linkArray, hstride]
    rcases grow_linkPos_cases hP hnarrow hlevel hb with ⟨-, hpos, hin⟩ | ⟨-, hl, hpos⟩
    · rw [hpos]
      omega
    · rw [hpos, Nat.add_assoc, ← Nat.succ_mul]
      refine Nat.add_le_add_left (Nat.mul_le_mul_right _ ?_) _
      split <;> omega
  · intro i l j k hb hc hne hlk
    have harray : (h.linkArray k).length = (h.linkArray l).length := by
      simp only [linkArray, hlk]
    have hsame : h.stride k = h.stride l := by
      simp only [stride, HnswConfig.maxNeighbours, hlk]
    rw [hstride, hstride]
    rcases grow_linkPos_cases hP hnarrow hlevel hb with ⟨hb, hpos, hin⟩ | ⟨rfl, hl, hpos⟩ <;>
      rcases grow_linkPos_cases hP hnarrow hlevel hc with ⟨hc, hpos', hin'⟩ | ⟨rfl, hk, hpos'⟩
    · rw [hpos, hpos']
      exact hP.disjoint i l j k hb hc hne hlk
    · exact .inl (by omega)
    · exact .inr (by omega)
    · have hlevels : l ≠ k := fun he => hne (by rw [he])
      have hl0 : l ≠ 0 := fun he => hlevels (by rw [he, hlk.mp he])
      have hk0 : k ≠ 0 := fun he => hl0 (hlk.mpr he)
      rw [hpos, hpos', harray, hsame]
      rcases Nat.lt_or_gt_of_ne hlevels with hlt | hlt
      · refine .inl ?_
        rw [Nat.add_assoc, ← Nat.succ_mul]
        exact Nat.add_le_add_left (Nat.mul_le_mul_right _ (by omega)) _
      · refine .inr ?_
        rw [Nat.add_assoc, ← Nat.succ_mul]
        exact Nat.add_le_add_left (Nat.mul_le_mul_right _ (by omega)) _
  · intro i l hb
    rcases grow_hasBlock hlevel hb with hb | ⟨rfl, hl⟩
    · rw [grow_linkPos_old hP hb,
        blockCount_congr (grow_linkArray_old hP hnarrow hb (by simp [stride]))]
      exact hP.count_le i l hb
    · rw [grow_blockCount_new hP hnarrow hl]
      exact Nat.zero_le _

theorem grow_block_old {i l : Nat} (hb : h.HasBlock i l) :
    (h.grow narrow level).block i l = h.block i l := by
  unfold block
  rw [grow_linkPos_old hP hb]
  exact readBlock_congr (h.stride l) (Nat.lt_succ_of_le (hP.count_le i l hb))
    (fun j _ hj => grow_linkArray_old hP hnarrow hb hj)

theorem grow_block_new {l : Nat} (hl : l ≤ level) :
    (h.grow narrow level).block h.nodeCount l = [] := by
  rw [block, readBlock, grow_blockCount_new hP hnarrow hl, List.take_zero]

omit hP hnarrow in
theorem grow_layout (hL : h.Layout) (hnarrow : narrow h.upperLinks.length = h.upperLinks.length)
    (hlevel : level ≤ 254) : (h.grow narrow level).Layout := by
  have hP := hL.placed
  have hnodes := grow_nodeLevel narrow (h := h) hlevel
  have hplaced := grow_placed hP hnarrow hlevel
  refine ⟨hplaced.offsets_length, hplaced.layer0_length, ?_, ?_, hplaced.count_le⟩
  · rw [hnodes]
    simp only [grow, hnarrow]
    rw [(zeroCounts_spec h.upperLinks.length h.upperStride level _).1]
    simp only [List.length_append, List.length_replicate, hL.upper_length, List.sum_append,
      List.sum_cons, List.sum_nil, Nat.add_zero, Nat.add_mul]
    rfl
  · intro i hi hlev
    rcases grow_hasBlock hlevel ⟨hi, hlev⟩ with ⟨hlt, hlev⟩ | ⟨rfl, hpos⟩
    · rw [grow_offset_old hP hlt, hL.offset i hlt hlev, hnodes, List.take_append_of_le_length hlt.le]
      rfl
    · rw [grow_offset_new hP hpos, hnarrow, hL.upper_length, hnodes, nodeCount,
        List.take_left]
      rfl

omit hP hnarrow in
theorem grow_grown (hL : h.Layout) (hnarrow : narrow h.upperLinks.length = h.upperLinks.length)
    (hlevel : level ≤ 254) : Grown h (h.grow narrow level) level where
  layout := grow_layout hL hnarrow hlevel
  metric := rfl
  config := rfl
  nodeLevel := grow_nodeLevel narrow hlevel
  entryPoint := rfl
  maxLevel := rfl
  liveCount := rfl
  rng := rfl
  old _ _ hb := grow_block_old hL.placed hnarrow hb
  new _ hl := grow_block_new hL.placed hnarrow hl

end GrowFields

/-- The grown graph is one whose new node no list names. -/
theorem Grown.graph {g : HnswIndex} {level : Nat} (hg : Grown h g level) (hG : h.Graph) :
    g.Graph ∧ ∀ l, g.Unlinked h.nodeCount l := by
  have hcases : ∀ i l, g.HasBlock i l →
      (h.HasBlock i l ∧ g.block i l = h.block i l) ∨ g.block i l = [] := by
    intro i l hb
    rcases (hg.hasBlock_iff i l).mp hb with hb | ⟨rfl, hl⟩
    · exact .inl ⟨hb, hg.old i l hb⟩
    · exact .inr (hg.new l hl)
  refine ⟨⟨hg.layout, ?_, ?_, ?_⟩, ?_⟩
  · intro i l hb
    rcases hcases i l hb with ⟨hb, he⟩ | he
    · rw [he]
      exact hG.nodup i l hb
    · simp [he]
  · intro i l hb
    rcases hcases i l hb with ⟨hb, he⟩ | he
    · rw [he]
      exact hG.irrefl i l hb
    · simp [he]
  · intro i l hb j hj
    rcases hcases i l hb with ⟨hb, he⟩ | he
    · rw [he] at hj
      exact (hg.hasBlock_iff j l).mpr (.inl (hG.reaches i l hb j hj))
    · simp [he] at hj
  · intro l i hb hj
    rcases hcases i l hb with ⟨hb, he⟩ | he
    · rw [he] at hj
      exact absurd (hG.reaches i l hb _ hj).1 (by simp)
    · simp [he] at hj

end Grow

/-- What holds of an index between two calls of `add`. -/
structure Invariant (h : HnswIndex) : Prop where
  graph : h.Graph
  level_le : ∀ i, i < h.nodeCount → h.level i ≤ h.maxLevel
  entry : 0 < h.nodeCount → h.HasBlock h.entryPoint h.maxLevel
  entry_empty : h.nodeCount = 0 → h.entryPoint = kInvalidLocalId

theorem empty_invariant (metric : Metric) (config : HnswConfig) :
    (empty metric config).Invariant := by
  have h0 : (empty metric config).nodeCount = 0 := rfl
  have hno : ∀ i l, ¬ (empty metric config).HasBlock i l := fun i l hb => by
    have := hb.1
    omega
  refine ⟨⟨⟨rfl, by simp [empty, nodeCount], by simp [empty], ?_, ?_⟩, ?_, ?_, ?_⟩, ?_, ?_,
    fun _ => rfl⟩
  · exact fun i hi => absurd hi (by omega)
  · exact fun i l hb => absurd hb (hno i l)
  · exact fun i l hb => absurd hb (hno i l)
  · exact fun i l hb => absurd hb (hno i l)
  · exact fun i l hb => absurd hb (hno i l)
  · exact fun i hi => absurd hi (by omega)
  · exact fun hi => absurd hi (by omega)

section Add
variable {K : Type} [BEq K] [LT K] [DecidableLT K]
variable (std : StdAlgorithms (Candidate K)) (view : SlotView K)
variable {h g : HnswIndex} {level : Nat}

omit [BEq K] in
/-- Where the wiring of the new node starts: an old node that reaches the layer. -/
theorem Grown.entry_others (hg : Grown h g level) (hI : h.Invariant) (hn : 0 < h.nodeCount)
    (key : LocalId → K) {k : Nat} (hk : k < min level g.maxLevel + 1) :
    g.Others h.nodeCount k (descendLayers g key level g.maxLevel g.entryPoint) := by
  obtain ⟨hG, hu⟩ := hg.graph hI.graph
  have hentry : g.Others h.nodeCount g.maxLevel g.entryPoint := by
    rw [hg.entryPoint, hg.maxLevel]
    exact ⟨(hg.hasBlock_iff _ _).mpr (.inl (hI.entry hn)), Nat.ne_of_lt (hI.entry hn).1⟩
  have hdesc := descendLayers_mem (h := g) key
    (Q := g.Others h.nodeCount) (fun l => hG.closedAt_others (hu l))
    (fun l i hi => ⟨hi.1.mono (by omega), hi.2⟩) level _ hentry
  exact ⟨hdesc.1.mono (by omega), hdesc.2⟩

theorem wired_graph (hI : h.Invariant) (hg : Grown h g level) (hn : 0 < h.nodeCount) :
    let entry := descendLayers g (view.key h.nodeCount) level g.maxLevel g.entryPoint
    let r := wireLayers std view h.nodeCount (min level g.maxLevel + 1) g [entry]
    r.Graph ∧ SameNodes g r := by
  obtain ⟨hG, hu⟩ := hg.graph hI.graph
  refine wireLayers_graph std view _ hG (fun k hk => ?_) (fun k _ => hu k)
    (fun k hk e he => ?_)
  · exact (hg.hasBlock_iff _ _).mpr (.inr ⟨rfl, by omega⟩)
  · rw [List.mem_singleton.mp he]
    exact hg.entry_others hI hn _ hk

/-- The entry point and the top layer may be moved to a node of the graph that no
node is above. -/
theorem Graph.invariant {r : HnswIndex} (hG : r.Graph) (hle : ∀ i, i < r.nodeCount →
    r.level i ≤ r.maxLevel) (hentry : r.HasBlock r.entryPoint r.maxLevel) : r.Invariant :=
  ⟨hG, hle, fun _ => hentry, fun h0 => absurd hentry.1 (by omega)⟩

/-- Neither the entry point nor the top layer is part of the graph. -/
theorem Graph.withEntry {r : HnswIndex} (hG : r.Graph) (entryPoint maxLevel : Nat) :
    ({ r with entryPoint := entryPoint, maxLevel := maxLevel } : HnswIndex).Graph :=
  ⟨⟨hG.layout.offsets_length, hG.layout.layer0_length, hG.layout.upper_length, hG.layout.offset,
    hG.layout.count_le⟩, hG.nodup, hG.irrefl, hG.reaches⟩

/-- Once a node has its place, what is left to keep is the entry point. -/
theorem Grown.invariant (hg : Grown h g level) (hI : h.Invariant) {r : HnswIndex} (hG : r.Graph)
    (hnodes : r.nodeLevel = g.nodeLevel)
    (hentry : (0 < h.nodeCount ∧ level ≤ h.maxLevel ∧ r.entryPoint = h.entryPoint ∧
        r.maxLevel = h.maxLevel) ∨
      ((0 < h.nodeCount → h.maxLevel < level) ∧ r.entryPoint = h.nodeCount ∧ r.maxLevel = level)) :
    r.Invariant := by
  have hcount : r.nodeCount = h.nodeCount + 1 := by
    rw [← hg.nodeCount]
    simp only [HnswIndex.nodeCount, hnodes]
  have hlevel : ∀ i, r.level i = g.level i := fun i => by simp only [HnswIndex.level, hnodes]
  have hnew := hg.level_new
  apply hG.invariant
  · intro i hi
    rw [hlevel]
    by_cases hlt : i < h.nodeCount
    · have hle := hI.level_le i hlt
      rw [hg.level_old hlt]
      rcases hentry with ⟨-, -, -, hm⟩ | ⟨hlow, -, hm⟩
      · omega
      · have := hlow (by omega)
        omega
    · rw [show i = h.nodeCount by omega, hnew]
      rcases hentry with ⟨-, hle, -, hm⟩ | ⟨-, -, hm⟩ <;> omega
  · rcases hentry with ⟨hpos, -, he, hm⟩ | ⟨-, he, hm⟩
    · rw [he, hm]
      obtain ⟨hlt, hle⟩ := hI.entry hpos
      exact ⟨by omega, by rw [hlevel, hg.level_old hlt]; exact hle⟩
    · rw [he, hm]
      exact ⟨by omega, by rw [hlevel, hnew]⟩

/-- What an added node changes besides the lists and where a search starts. -/
structure Appended (h r : HnswIndex) (level : Nat) : Prop where
  nodeLevel : r.nodeLevel = h.nodeLevel ++ [level]
  config : r.config = h.config
  metric : r.metric = h.metric
  liveCount : r.liveCount = h.liveCount + 1
  upper_length : r.upperLinks.length = h.upperLinks.length + level * h.upperStride

theorem length_grow_upperLinks (narrow : Nat → Nat) (h : HnswIndex) (level : Nat) :
    (h.grow narrow level).upperLinks.length = h.upperLinks.length + level * h.upperStride := by
  have hset : ∀ (n : Nat) (a : List Nat), ((List.range n).foldl
      (fun a i => a.set (narrow h.upperLinks.length + i * h.upperStride) 0) a).length =
        a.length := by
    intro n a
    induction n with
    | zero => rfl
    | succ n ih => rw [List.range_succ, List.foldl_append, List.foldl_cons, List.foldl_nil,
        List.length_set, ih]
  simp [grow, hset]

theorem Appended.nodeCount {r : HnswIndex} {level : Nat} (ha : Appended h r level) :
    r.nodeCount = h.nodeCount + 1 := by
  simp [HnswIndex.nodeCount, ha.nodeLevel]

theorem Appended.upper_length_le {r : HnswIndex} {level : Nat} (ha : Appended h r level)
    (hm : h.config.m ≤ 512) (hlevel : level ≤ 254) :
    r.upperLinks.length ≤ h.upperLinks.length + 130302 := by
  have hstride : h.upperStride ≤ 513 := Nat.succ_le_succ hm
  have hmul : level * h.upperStride ≤ 254 * 513 := Nat.mul_le_mul hlevel hstride
  rw [ha.upper_length]
  omega

/-- A call for the next slot does not throw, whatever the arrays hold. -/
theorem addWithLevel_appended (narrow : Nat → Nat) (h : HnswIndex) {level : Nat}
    (hlevel : level ≤ 254) (hsize : h.nodeCount < view.size) :
    ∃ r, addWithLevel std view narrow h h.nodeCount level = .ok r ∧ Appended h r level ∧
      r.rng = h.rng := by
  have hnodes := grow_nodeLevel (h := h) narrow hlevel
  have hupper := length_grow_upperLinks narrow h level
  unfold addWithLevel
  rw [if_neg (by simp), if_neg (by omega)]
  split
  · exact ⟨_, rfl, ⟨hnodes, rfl, rfl, rfl, hupper⟩, rfl⟩
  · unfold connect
    dsimp only
    have hs := wireLayers_sameNodes std view h.nodeCount
      (min level (h.grow narrow level).maxLevel + 1) (h.grow narrow level)
      [descendLayers (h.grow narrow level) (view.key h.nodeCount) level
        (h.grow narrow level).maxLevel (h.grow narrow level).entryPoint]
    have hlength := length_wireLayers std view h.nodeCount
      (min level (h.grow narrow level).maxLevel + 1) (h.grow narrow level)
      [descendLayers (h.grow narrow level) (view.key h.nodeCount) level
        (h.grow narrow level).maxLevel (h.grow narrow level).entryPoint] 1
    refine ⟨_, rfl, ?_⟩
    split <;>
      exact ⟨⟨hs.nodeLevel.trans hnodes, hs.config, hs.metric, hs.liveCount,
        hlength.trans hupper⟩, hs.rng⟩

/-- `add` of the next slot succeeds and keeps the invariant. -/
theorem addWithLevel_invariant (hI : h.Invariant) (narrow : Nat → Nat) (hlevel : level ≤ 254)
    (hnarrow : narrow h.upperLinks.length = h.upperLinks.length) (hsize : h.nodeCount < view.size) :
    ∃ r, addWithLevel std view narrow h h.nodeCount level = .ok r ∧ r.Invariant ∧
      r.nodeLevel = h.nodeLevel ++ [level] ∧ r.config = h.config ∧ r.metric = h.metric ∧
      r.liveCount = h.liveCount + 1 ∧ r.rng = h.rng := by
  have hg := grow_grown hI.graph.layout hnarrow hlevel
  obtain ⟨hG, -⟩ := hg.graph hI.graph
  unfold addWithLevel
  rw [if_neg (by simp), if_neg (by omega)]
  by_cases hn : h.nodeCount = 0
  · rw [if_pos (hI.entry_empty hn)]
    exact ⟨_, rfl, hg.invariant hI (hG.withEntry h.nodeCount level) rfl
      (.inr ⟨fun hpos => absurd hpos (by omega), rfl, rfl⟩), hg.nodeLevel, rfl, rfl, rfl, rfl⟩
  · have hvalid : h.entryPoint ≠ kInvalidLocalId := by
      have hsize := view.size_le
      have hmax : kMaxVectorCount < kInvalidLocalId := by decide
      exact Nat.ne_of_lt ((hI.entry (by omega)).1.trans (by omega))
    rw [if_neg hvalid]
    obtain ⟨hr, hs⟩ := wired_graph std view hI hg (by omega)
    refine ⟨_, rfl, ?_⟩
    unfold connect
    have hmax := hg.maxLevel
    dsimp only
    split
    next hhigh =>
      exact ⟨hg.invariant hI (hr.withEntry _ _) hs.nodeLevel
        (.inr ⟨fun _ => by omega, rfl, rfl⟩), hs.nodeLevel.trans hg.nodeLevel, hs.config, hs.metric,
        hs.liveCount, hs.rng⟩
    next hlow =>
      exact ⟨hg.invariant hI hr hs.nodeLevel
        (.inl ⟨by omega, by omega, hs.entryPoint, hs.maxLevel⟩), hs.nodeLevel.trans hg.nodeLevel,
        hs.config, hs.metric, hs.liveCount, hs.rng⟩

/-- The generator is not part of the graph. -/
theorem Invariant.withRng (hI : h.Invariant) (rng : BitVec 64) :
    ({ h with rng := rng } : HnswIndex).Invariant :=
  ⟨⟨⟨hI.graph.layout.offsets_length, hI.graph.layout.layer0_length, hI.graph.layout.upper_length,
    hI.graph.layout.offset, hI.graph.layout.count_le⟩, hI.graph.nodup, hI.graph.irrefl,
    hI.graph.reaches⟩, hI.level_le, hI.entry, hI.entry_empty⟩

/-- `addWithLevel` where a generator has just moved on. -/
theorem addWithLevel_withRng (hI : h.Invariant) (rng : BitVec 64) (hlevel : level ≤ 254)
    (hfits : level = 0 ∨ h.upperLinks.length < 4294967296) (hsize : h.nodeCount < view.size) :
    ∃ r, addWithLevel std view narrow32 { h with rng := rng } h.nodeCount level = .ok r ∧
      r.Invariant ∧ r.nodeLevel = h.nodeLevel ++ [level] ∧ r.config = h.config ∧
      r.metric = h.metric ∧ r.liveCount = h.liveCount + 1 ∧ r.rng = rng := by
  by_cases hflat : level = 0
  · -- A node without upper layers has no offset to narrow.
    subst hflat
    exact addWithLevel_invariant std view (hI.withRng rng) id hlevel rfl hsize
  · have hnarrow : narrow32 h.upperLinks.length = h.upperLinks.length :=
      Nat.mod_eq_of_lt (hfits.resolve_left hflat)
    exact addWithLevel_invariant std view (hI.withRng rng) narrow32 hlevel hnarrow hsize

theorem randomLevel_le (h : HnswIndex) (levelOf : Nat → BitVec 64 → Nat) :
    (h.randomLevel levelOf).1 ≤ 254 := Nat.min_le_right _ _

/-- `add` itself, as long as the offset it stores fits its 32 bits. -/
theorem add_invariant (hI : h.Invariant) (levelOf : Nat → BitVec 64 → Nat)
    (hfits : (h.randomLevel levelOf).1 = 0 ∨ h.upperLinks.length < 4294967296)
    (hsize : h.nodeCount < view.size) :
    ∃ r, add std view levelOf h h.nodeCount = .ok r ∧ r.Invariant ∧
      r.nodeLevel = h.nodeLevel ++ [(h.randomLevel levelOf).1] ∧ r.config = h.config ∧
      r.metric = h.metric ∧ r.liveCount = h.liveCount + 1 ∧
      r.rng = (h.randomLevel levelOf).2 :=
  addWithLevel_withRng std view hI (h.randomLevel levelOf).2 (h.randomLevel_le levelOf) hfits hsize

/-- `add` of the next slots one after the other, with these levels drawn. -/
def addLevels (narrow : Nat → Nat) (h : HnswIndex) : List Nat → Except Error HnswIndex
  | [] => .ok h
  | level :: levels =>
    match addWithLevel std view narrow h h.nodeCount level with
    | .error e => .error e
    | .ok g => addLevels narrow g levels

theorem addLevels_invariant (hI : h.Invariant) {levels : List Nat} (hlevels : ∀ l ∈ levels, l ≤ 254)
    (hsize : h.nodeCount + levels.length ≤ view.size) :
    ∃ r, addLevels std view id h levels = .ok r ∧ r.Invariant ∧
      r.nodeLevel = h.nodeLevel ++ levels ∧ r.config = h.config := by
  induction levels generalizing h with
  | nil => exact ⟨h, rfl, hI, by simp, rfl⟩
  | cons l levels ih =>
    rw [List.length_cons] at hsize
    obtain ⟨g, hg, hgI, hnodes, hconfig, -⟩ := addWithLevel_invariant std view hI id
      (hlevels l (by simp)) rfl (by omega)
    have hcount : g.nodeCount = h.nodeCount + 1 := by simp [nodeCount, hnodes]
    obtain ⟨r, hr, hrI, hrn, hrc⟩ := ih hgI (fun k hk => hlevels k (by simp [hk])) (by omega)
    exact ⟨r, by rw [addLevels, hg]; exact hr, hrI, by simp [hrn, hnodes], hrc.trans hconfig⟩

end Add

/-- The representation of a graph in its arrays, in terms of what `links` and
`neighbours` give. -/
structure Representation (h : HnswIndex) : Prop where
  layer0_length : h.layer0Links.length = h.nodeCount * (2 * h.config.m + 1)
  inside : ∀ i l, h.HasBlock i l → 1 ≤ l →
    h.linkPos i l + (h.config.m + 1) ≤ h.upperLinks.length
  disjoint : ∀ i l j k, h.HasBlock i l → 1 ≤ l → h.HasBlock j k → 1 ≤ k → (i, l) ≠ (j, k) →
    h.linkPos i l + (h.config.m + 1) ≤ h.linkPos j k ∨
      h.linkPos j k + (h.config.m + 1) ≤ h.linkPos i l
  count_le : ∀ i l, h.HasBlock i l →
    blockCount (h.linkArray l) (h.linkPos i l) ≤ h.config.maxNeighbours l
  nodup : ∀ i l, h.HasBlock i l → (h.neighbours i l).Nodup
  neighbour : ∀ i l, h.HasBlock i l → ∀ j ∈ h.neighbours i l,
    j < h.nodeCount ∧ j ≠ i ∧ l ≤ h.level j
  level_le : ∀ i, i < h.nodeCount → h.level i ≤ h.maxLevel
  entry : 0 < h.nodeCount → h.entryPoint < h.nodeCount ∧ h.level h.entryPoint = h.maxLevel

theorem Invariant.representation {h : HnswIndex} (hI : h.Invariant) : h.Representation where
  layer0_length := by
    rw [hI.graph.layout.layer0_length, layer0Stride, HnswConfig.maxM0, Nat.mul_comm h.config.m]
  inside i l hb hl := by
    have hin := linkPos_add_stride_le hI.graph.layout hb
    simpa [stride, HnswConfig.maxNeighbours, linkArray, Nat.ne_of_gt hl] using hin
  disjoint i l j k hb hl hc hk hne := by
    have hd := blocks_disjoint hI.graph.layout hb hc hne (by omega)
    simpa [stride, HnswConfig.maxNeighbours, Nat.ne_of_gt hl, Nat.ne_of_gt hk] using hd
  count_le := hI.graph.layout.count_le
  nodup i l hb := by
    rw [neighbours_of_hasBlock hb]
    exact hI.graph.nodup i l hb
  neighbour i l hb j hj := by
    rw [neighbours_of_hasBlock hb] at hj
    obtain ⟨hlt, hle⟩ := hI.graph.reaches i l hb j hj
    exact ⟨hlt, fun he => hI.graph.irrefl i l hb (he ▸ hj), hle⟩
  level_le := hI.level_le
  entry hn := ⟨(hI.entry hn).1, Nat.le_antisymm (hI.level_le _ (hI.entry hn).1) (hI.entry hn).2⟩

/-- Adding any slots with any levels to a fresh index of an accepted
configuration gives a well-represented graph of all of them. -/
theorem addLevels_representation {K : Type} [BEq K] [LT K] [DecidableLT K]
    (std : StdAlgorithms (Candidate K)) (view : SlotView K) (metric : Metric) (config : HnswConfig)
    (levels : List Nat) (hconfig : config.validate = .ok ()) (hlevels : ∀ l ∈ levels, l ≤ 254)
    (hsize : levels.length ≤ view.size) :
    ∃ h, create metric config = .ok (empty metric config) ∧
      addLevels std view id (empty metric config) levels = .ok h ∧ h.nodeLevel = levels ∧
      h.config = config ∧ h.Representation := by
  obtain ⟨h, hh, hI, hnodes, hc⟩ := addLevels_invariant std view (empty_invariant metric config)
    hlevels (by simpa [empty, nodeCount] using hsize)
  exact ⟨h, by rw [create, hconfig]; rfl, hh, hnodes, hc, hI.representation⟩

/-- Three slots whose keys are all incomparable, with levels 0, 2 and 1. -/
theorem addLevels_representation_three :
    ∃ h, create .cosine ⟨2, 2, 1, 0⟩ = .ok (empty .cosine ⟨2, 2, 1, 0⟩) ∧
      addLevels .insertion (⟨1, 3, by decide, fun _ _ => 0, fun _ => true⟩ : SlotView Nat) id
        (empty .cosine ⟨2, 2, 1, 0⟩) [0, 2, 1] = .ok h ∧
      h.nodeLevel = [0, 2, 1] ∧ h.config = ⟨2, 2, 1, 0⟩ ∧ h.Representation :=
  addLevels_representation .insertion ⟨1, 3, by decide, fun _ _ => 0, fun _ => true⟩ .cosine
    ⟨2, 2, 1, 0⟩ [0, 2, 1] rfl (by decide) (by decide)

end HnswIndex

end VectorDb.Index
