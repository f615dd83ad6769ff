import VectorDb.Index.HnswCongruence
import VectorDb.Index.HnswInvariant

/-!
Every number in a graph's arrays fits the word its file gives it.
-/
set_option autoImplicit false

namespace VectorDb.Index

open VectorDb.Lib

namespace HnswIndex

/-- The entries of both link arrays are 32-bit words. -/
def Words (h : HnswIndex) : Prop := ∀ l x : Nat, x ∈ h.linkArray l → x < 4294967296

/-- The entries of both link arrays are among these numbers. -/
def WordsIn (config : HnswConfig) (P : Nat → Prop) (h : HnswIndex) : Prop :=
  h.config = config ∧ ∀ l x : Nat, x ∈ h.linkArray l → P x

section Keeps
variable {config : HnswConfig} {P : Nat → Prop}

theorem WordsIn.withLinkArray {h : HnswIndex} (hw : WordsIn config P h) {l : Nat} {a : List Nat}
    (ha : ∀ x ∈ a, P x) : WordsIn config P (h.withLinkArray l a) := by
  refine ⟨(withLinkArray_config h l a).trans hw.1, fun k x hx => ?_⟩
  rw [withLinkArray_linkArray] at hx
  split at hx
  · exact ha x hx
  · exact hw.2 k x hx

/-- Counts and node numbers are all that is written to the arrays. -/
theorem keeps_wordsIn (hcount : ∀ n l, n ≤ config.maxNeighbours l → P n) :
    Keeps (WordsIn config P) fun _ => P where
  below _ _ hi := hi
  block h i l hw _ j hj := hw.2 l j (mem_of_mem_readBlock hj)
  setNeighbours h i l ids hw _ hids hlen := hw.withLinkArray fun x hx => by
    rcases mem_writeBlock hx with hx | rfl | hx
    · exact hw.2 l x hx
    · exact hcount _ l (hw.1 ▸ hlen)
    · exact hids x hx
  pushBlock h i l j hw _ hj hroom := hw.withLinkArray fun x hx => by
    rcases mem_pushBlock hx with hx | rfl | rfl
    · exact hw.2 l x hx
    · exact hcount _ l (hw.1 ▸ hroom)
    · exact hj

end Keeps

section Words
variable {h : HnswIndex} {l : Nat}

/-- The lists of a valid configuration are short. -/
theorem maxNeighbours_le {config : HnswConfig} (hm : config.m ≤ 512) (l : Nat) :
    config.maxNeighbours l ≤ 1024 := by
  unfold HnswConfig.maxNeighbours HnswConfig.maxM0
  split <;> omega

theorem keeps_words (hm : h.config.m ≤ 512) :
    Keeps (WordsIn h.config (· < 4294967296)) fun _ => (· < 4294967296) :=
  keeps_wordsIn fun n l hn => by
    have := maxNeighbours_le hm l
    omega

variable {K : Type} [BEq K] [LT K] [DecidableLT K] (std : StdAlgorithms (Candidate K))

theorem Words.wireLayers (view : SlotView K) (n : Nat) {id : Nat} {entries : List LocalId}
    (hw : h.Words) (hm : h.config.m ≤ 512) (hid : id < 4294967296)
    (he : ∀ e ∈ entries, e < 4294967296) : (wireLayers std view id n h entries).Words :=
  (wireLayers_congr std (keeps_words hm) aside_id (fun _ _ _ _ => rfl) n ⟨rfl, hw⟩
    (fun _ _ => hid) fun _ _ => he).2.2

end Words

/-- No node with upper layers has the offset that stands for none. -/
def Marked (h : HnswIndex) : Prop :=
  ∀ i, i < h.nodeCount → h.level i ≠ 0 → h.upperOffsets.getD i 0 ≠ kNoUpperLinks

/-- What a graph's arrays keep so that its file can hold them. -/
structure Writable (h : HnswIndex) : Prop where
  words : h.Words
  offsets : ∀ x ∈ h.upperOffsets, x < 4294967296
  levels : ∀ x ∈ h.nodeLevel, x ≤ 254
  entryPoint : h.entryPoint < 4294967296
  maxLevel_le : h.maxLevel ≤ 254
  flat : ∀ i, i < h.nodeCount → h.level i = 0 → h.upperOffsets.getD i 0 = kNoUpperLinks

theorem empty_writable (metric : Metric) (config : HnswConfig) :
    (empty metric config).Writable := by
  refine ⟨fun l x hx => ?_, by simp [empty], by simp [empty],
    show kInvalidLocalId < 4294967296 by decide, by simp [empty], fun i hi => ?_⟩
  · unfold linkArray at hx
    split at hx <;> simp [empty] at hx
  · simp [empty, nodeCount] at hi

section Add
variable {K : Type} [BEq K] [LT K] [DecidableLT K] (std : StdAlgorithms (Candidate K))
variable {h r : HnswIndex} {level : Nat} {narrow : Nat → Nat}

theorem grow_linkArray_mem {l x : Nat} (hx : x ∈ (h.grow narrow level).linkArray l) :
    x ∈ h.linkArray l ∨ x = kInvalidLocalId ∨ x = 0 := by
  have hzero : ∀ (n : Nat) (a : List Nat), x ∈ (List.range n).foldl
      (fun a i => a.set (narrow h.upperLinks.length + i * h.upperStride) 0) a → x ∈ a ∨ x = 0 := by
    intro n a hx
    induction n with
    | zero => exact .inl hx
    | succ n ih =>
      rw [List.range_succ, List.foldl_append, List.foldl_cons, List.foldl_nil] at hx
      rcases List.mem_or_eq_of_mem_set hx with hx | hx
      · exact ih hx
      · exact .inr hx
  unfold linkArray at hx ⊢
  by_cases hl : l = 0
  · simp only [hl, if_true, grow] at hx ⊢
    rcases List.mem_or_eq_of_mem_set hx with hx | hx
    · rcases List.mem_append.mp hx with hx | hx
      · exact .inl hx
      · exact .inr (.inl (List.eq_of_mem_replicate hx))
    · exact .inr (.inr hx)
  · simp only [hl, if_false, grow] at hx ⊢
    rcases hzero _ _ hx with hx | hx
    · rcases List.mem_append.mp hx with hx | hx
      · exact .inl hx
      · exact .inr (.inl (List.eq_of_mem_replicate hx))
    · exact .inr (.inr hx)

theorem Writable.grow (hW : h.Writable) (hL : h.upperOffsets.length = h.nodeCount)
    (hlevel : level ≤ 254) : (h.grow narrow32 level).Writable := by
  have hlen : (h.grow narrow32 level).nodeCount = h.nodeCount + 1 := by
    simp [HnswIndex.grow, nodeCount]
  refine ⟨fun l x hx => ?_, fun x hx => ?_, fun x hx => ?_, hW.entryPoint,
    hW.maxLevel_le, fun i hi h0 => ?_⟩
  · rcases grow_linkArray_mem hx with hx | rfl | rfl
    · exact hW.words l x hx
    · decide
    · decide
  · simp only [HnswIndex.grow, List.mem_append, List.mem_singleton] at hx
    rcases hx with hx | rfl
    · exact hW.offsets x hx
    · split
      · exact Nat.mod_lt _ (by decide)
      · decide
  · simp only [HnswIndex.grow, List.mem_append, List.mem_singleton] at hx
    rcases hx with hx | rfl
    · exact hW.levels x hx
    · omega
  · rw [hlen] at hi
    simp only [HnswIndex.level, HnswIndex.grow, List.getD_eq_getElem?_getD] at h0 ⊢
    by_cases hlt : i < h.nodeCount
    · rw [List.getElem?_append_left hlt] at h0
      rw [List.getElem?_append_left (by omega)]
      simpa using hW.flat i hlt (by simpa [HnswIndex.level] using h0)
    · have hi : i = h.nodeCount := by omega
      subst hi
      rw [List.getElem?_append_right (by omega), hL]
      simp only [nodeCount, List.getElem?_append_right le_rfl, Nat.sub_self,
        List.getElem?_cons_zero, Option.getD_some] at h0 ⊢
      rw [if_neg (by omega)]

/-- A graph that differs in its lists only. -/
theorem Writable.sameNodes (hW : h.Writable) (hs : SameNodes h r) (hw : r.Words) : r.Writable :=
  ⟨hw, by rw [hs.upperOffsets]; exact hW.offsets, by rw [hs.nodeLevel]; exact hW.levels,
    by rw [hs.entryPoint]; exact hW.entryPoint, by rw [hs.maxLevel]; exact hW.maxLevel_le,
    fun i hi h0 => by
      rw [hs.upperOffsets]
      rw [hs.nodeCount] at hi
      rw [hs.level] at h0
      exact hW.flat i hi h0⟩

theorem Writable.withEntry (hW : h.Writable) {entryPoint : Nat} (he : entryPoint < 4294967296)
    {maxLevel : Nat} (hmax : maxLevel ≤ 254) :
    ({ h with entryPoint := entryPoint, maxLevel := maxLevel } : HnswIndex).Writable :=
  ⟨hW.words, hW.offsets, hW.levels, he, hmax, hW.flat⟩

theorem Writable.addWithLevel (view : SlotView K) (hW : h.Writable)
    (hL : h.upperOffsets.length = h.nodeCount) (hm : h.config.m ≤ 512) (hlevel : level ≤ 254)
    (hr : addWithLevel std view narrow32 h h.nodeCount level = .ok r) : r.Writable := by
  have hg := hW.grow hL hlevel
  have hsize := view.size_le
  have hmax : kMaxVectorCount < 4294967296 := by decide
  unfold HnswIndex.addWithLevel at hr
  split at hr
  · cases hr
  · split at hr
    · cases hr
    next hlt =>
      have hid : h.nodeCount < 4294967296 := by omega
      split at hr
      · cases hr
        exact hg.withEntry hid hlevel
      · cases hr
        have hentry := descendLayers_mem (h := h.grow narrow32 level) (view.key h.nodeCount)
          (Q := fun _ i => i < 4294967296) ((keeps_words hm).closedAt ⟨rfl, hg.words⟩) (fun _ _ hi => hi) level
          (h.grow narrow32 level).maxLevel hg.entryPoint
        have hw := hg.words.wireLayers std view
          (min level (h.grow narrow32 level).maxLevel + 1) hm hid
          (fun e he => by rw [List.mem_singleton.mp he]; exact hentry)
        have hwired := hg.sameNodes (wireLayers_sameNodes std view h.nodeCount _ _ _) hw
        unfold connect
        dsimp only
        split
        · exact hwired.withEntry hid hlevel
        · exact hwired

end Add

end HnswIndex

end VectorDb.Index
