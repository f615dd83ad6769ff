import VectorDb.Index.HnswRoundTrip

/-!
What a graph becomes after it was saved and loaded: the generator alone differs,
and with it the levels of the nodes to come.
-/
set_option autoImplicit false

namespace VectorDb.Index

open VectorDb.Lib

namespace HnswIndex

/-- What calls of `add` leave behind for a search: levels, neighbour lists and
where a search starts. -/
structure SameGraph (h g : HnswIndex) : Prop where
  nodeLevel : g.nodeLevel = h.nodeLevel
  neighbours : ∀ i l, g.neighbours i l = h.neighbours i l
  entryPoint : g.entryPoint = h.entryPoint
  maxLevel : g.maxLevel = h.maxLevel

def withRng (h : HnswIndex) (rng : BitVec 64) : HnswIndex := { h with rng := rng }

/-- The levels of the next `n` nodes, from the generator's state. -/
def drawLevels (levelOf : Nat → BitVec 64 → Nat) (m : Nat) : Nat → BitVec 64 → List Nat
  | 0, _ => []
  | n + 1, rng =>
    min (levelOf m ((splitmix64 rng).2 >>> 40)) 254 ::
      drawLevels levelOf m n (splitmix64 rng).1

theorem length_drawLevels (levelOf : Nat → BitVec 64 → Nat) (m n : Nat) (rng : BitVec 64) :
    (drawLevels levelOf m n rng).length = n := by
  induction n generalizing rng with
  | zero => rfl
  | succ n ih => rw [drawLevels, List.length_cons, ih]

section Generator
variable {K : Type} [BEq K] [LT K] [DecidableLT K] (std : StdAlgorithms (Candidate K))

@[simp] theorem withRng_rng (h : HnswIndex) (rng : BitVec 64) : (h.withRng rng).rng = rng := rfl

@[simp] theorem withRng_withRng (h : HnswIndex) (rng next : BitVec 64) :
    (h.withRng rng).withRng next = h.withRng next := rfl

@[simp] theorem withRng_nodeCount (h : HnswIndex) (rng : BitVec 64) :
    (h.withRng rng).nodeCount = h.nodeCount := rfl

@[simp] theorem withRng_neighbours (h : HnswIndex) (rng : BitVec 64) (i l : Nat) :
    (h.withRng rng).neighbours i l = h.neighbours i l := rfl

theorem aside_withRng (rng : BitVec 64) : Aside fun h => h.withRng rng where
  config _ := rfl
  nodeLevel _ := rfl
  layer0Links _ := rfl
  upperLinks _ := rfl
  upperOffsets _ := rfl
  entryPoint _ := rfl
  maxLevel _ := rfl
  withLinkArray h l a := by
    unfold withLinkArray
    split <;> rfl
  withEntry _ _ _ := rfl

/-- Once its level is drawn, a node is added without the generator. -/
theorem addWithLevel_withRng_eq (view : SlotView K) (narrow : Nat → Nat) (h : HnswIndex)
    (rng : BitVec 64) (id level : Nat) :
    addWithLevel std view narrow (h.withRng rng) id level =
      (addWithLevel std view narrow h id level).map fun g => g.withRng rng :=
  addWithLevel_congr std keeps_all (aside_withRng rng) (fun _ _ _ _ => rfl) (aside_withRng rng) rfl
    (fun _ => ⟨trivial, fun _ _ => trivial, trivial⟩) Iff.rfl

end Generator

section Adds
variable {K : Type} [BEq K] [LT K] [DecidableLT K] (std : StdAlgorithms (Candidate K))
variable (view : SlotView K) (levelOf : Nat → BitVec 64 → Nat) {h r : HnswIndex}

/-- `n` calls of `add`, each for the next slot. -/
def adds (h : HnswIndex) : Nat → Except Error HnswIndex
  | 0 => .ok h
  | n + 1 =>
    match add std view levelOf h h.nodeCount with
    | .error e => .error e
    | .ok g => adds g n

/-- The entries the upper layers take in their array. -/
def arenaSize (h : HnswIndex) : Nat := h.nodeLevel.sum * h.upperStride

theorem addWithLevel_withRng_appended (h : HnswIndex) (rng : BitVec 64) {level : Nat}
    (hlevel : level ≤ 254) (hsize : h.nodeCount < view.size) :
    ∃ r, addWithLevel std view narrow32 (h.withRng rng) h.nodeCount level = .ok r ∧
      Appended h r level ∧ r.rng = rng := by
  obtain ⟨r, hr, ha, hrng⟩ := addWithLevel_appended std view narrow32 (h.withRng rng) hlevel hsize
  exact ⟨r, hr, ⟨ha.nodeLevel, ha.config, ha.metric, ha.liveCount, ha.upper_length⟩, hrng⟩

/-- A call for the next slot does not throw, and draws one level. -/
theorem add_appended (h : HnswIndex) (hsize : h.nodeCount < view.size) :
    ∃ r, add std view levelOf h h.nodeCount = .ok r ∧
      Appended h r (h.randomLevel levelOf).1 ∧ r.rng = (splitmix64 h.rng).1 :=
  addWithLevel_withRng_appended std view h _ (h.randomLevel_le levelOf) hsize

theorem add_withRng (h : HnswIndex) (rng : BitVec 64) (id : Nat) :
    add std view levelOf (h.withRng rng) id =
      (addWithLevel std view narrow32 h id
        (min (levelOf h.config.m ((splitmix64 rng).2 >>> 40)) 254)).map
          fun g => g.withRng (splitmix64 rng).1 :=
  addWithLevel_withRng_eq std view narrow32 h (splitmix64 rng).1 id _

/-- Adding the next `n` nodes succeeds, and appends the levels drawn. -/
theorem adds_nodeLevel {n : Nat} (h : HnswIndex) (hsize : h.nodeCount + n ≤ view.size) :
    ∃ r, adds std view levelOf h n = .ok r ∧
      r.nodeLevel = h.nodeLevel ++ drawLevels levelOf h.config.m n h.rng ∧
      r.config = h.config ∧ r.metric = h.metric := by
  induction n generalizing h with
  | zero => exact ⟨h, rfl, by simp [drawLevels], rfl, rfl⟩
  | succ n ih =>
    obtain ⟨g, hg, ha, hrng⟩ := add_appended std view levelOf h (by omega)
    obtain ⟨r, hr, hnodes, hconfig, hmetric⟩ := ih g (by rw [ha.nodeCount]; omega)
    refine ⟨r, by rw [adds, hg]; exact hr, ?_, hconfig.trans ha.config, hmetric.trans ha.metric⟩
    rw [hnodes, ha.nodeLevel, hrng, ha.config, List.append_assoc]
    rfl

theorem adds_withRng_nodeLevel {n : Nat} (h : HnswIndex) (rng : BitVec 64)
    (hsize : h.nodeCount + n ≤ view.size) :
    ∃ r, adds std view levelOf (h.withRng rng) n = .ok r ∧
      r.nodeLevel = h.nodeLevel ++ drawLevels levelOf h.config.m n rng := by
  obtain ⟨r, hr, hnodes, -⟩ := adds_nodeLevel std view levelOf (h.withRng rng) hsize
  exact ⟨r, hr, hnodes⟩

/-- Two generators that draw the same levels make the same graph. -/
theorem adds_withRng {n : Nat} {r : HnswIndex} (h : HnswIndex) (rng : BitVec 64)
    (hlevels : drawLevels levelOf h.config.m n rng = drawLevels levelOf h.config.m n h.rng)
    (hsize : h.nodeCount + n ≤ view.size) (hr : adds std view levelOf h n = .ok r) :
    ∃ last, adds std view levelOf (h.withRng rng) n = .ok (r.withRng last) := by
  induction n generalizing h rng with
  | zero =>
    cases hr
    exact ⟨rng, rfl⟩
  | succ n ih =>
    rw [drawLevels, drawLevels, List.cons.injEq] at hlevels
    obtain ⟨hhead, htail⟩ := hlevels
    obtain ⟨g, hg, ha, hrng⟩ := add_appended std view levelOf h (by omega)
    rw [adds, hg] at hr
    have hsame : add std view levelOf (h.withRng rng) h.nodeCount =
        .ok (g.withRng (splitmix64 rng).1) := by
      have hown := add_withRng std view levelOf h h.rng h.nodeCount
      rw [show h.withRng h.rng = h from rfl, hg] at hown
      rw [add_withRng, hhead]
      cases hadd : addWithLevel std view narrow32 h h.nodeCount
          (min (levelOf h.config.m ((splitmix64 h.rng).2 >>> 40)) 254) with
      | error e =>
        rw [hadd] at hown
        cases hown
      | ok f =>
        rw [hadd] at hown
        rw [Except.ok.inj hown]
        exact congrArg Except.ok (withRng_withRng f _ _).symm
    have hnext := ih g (splitmix64 rng).1 (by rw [ha.config, hrng]; exact htail)
      (by rw [ha.nodeCount]; omega) hr
    rw [adds, show (h.withRng rng).nodeCount = h.nodeCount from rfl, hsame]
    exact hnext

theorem arenaSize_append {h r : HnswIndex} {levels : List Nat}
    (hnodes : r.nodeLevel = h.nodeLevel ++ levels) (hconfig : r.config = h.config) :
    h.arenaSize ≤ r.arenaSize := by
  simp only [arenaSize, upperStride, hnodes, hconfig, List.sum_append]
  exact Nat.mul_le_mul_right _ (Nat.le_add_right _ _)

theorem addWithLevel_withRng_writable {h r : HnswIndex} (rng : BitVec 64) {level : Nat}
    (hW : h.Writable) (hL : h.upperOffsets.length = h.nodeCount) (hm : h.config.m ≤ 512)
    (hlevel : level ≤ 254)
    (hr : addWithLevel std view narrow32 (h.withRng rng) h.nodeCount level = .ok r) :
    r.Writable := by
  have hW : (h.withRng rng).Writable :=
    ⟨hW.words, hW.offsets, hW.levels, hW.entryPoint, hW.maxLevel_le, hW.flat⟩
  exact hW.addWithLevel std view hL hm hlevel hr

/-- Where the upper layers of the node just added begin. -/
theorem Layout.offset_last {h r : HnswIndex} {level : Nat} (hL : h.Layout) (hR : r.Layout)
    (hnodes : r.nodeLevel = h.nodeLevel ++ [level]) (hconfig : r.config = h.config)
    (hpos : 0 < level) : r.upperOffsets.getD h.nodeCount 0 = h.upperLinks.length := by
  have hlevel : r.level h.nodeCount = level := by
    simp [HnswIndex.level, hnodes, nodeCount]
  rw [hR.offset h.nodeCount (by simp [nodeCount, hnodes]) (hlevel ▸ hpos), hnodes, nodeCount,
    List.take_left, hL.upper_length, upperStride, upperStride, hconfig]

theorem Marked.append {h r : HnswIndex} {level : Nat} (hm : h.Marked) (hL : h.Layout)
    (hR : r.Layout) (hnodes : r.nodeLevel = h.nodeLevel ++ [level]) (hconfig : r.config = h.config)
    (hfits : level = 0 ∨ h.upperLinks.length < kNoUpperLinks) : r.Marked := by
  intro i hi hne
  have hcount : r.nodeCount = h.nodeCount + 1 := by simp [nodeCount, hnodes]
  by_cases hlt : i < h.nodeCount
  · have hlevel : r.level i = h.level i := by
      simp only [HnswIndex.level, hnodes, List.getD_eq_getElem?_getD]
      rw [List.getElem?_append_left hlt]
    rw [hlevel] at hne
    have hold := hm i hlt hne
    rw [hL.offset i hlt (Nat.pos_of_ne_zero hne)] at hold
    rw [hR.offset i hi (by rw [hlevel]; exact Nat.pos_of_ne_zero hne), hnodes,
      List.take_append_of_le_length (Nat.le_of_lt hlt), upperStride, hconfig]
    exact hold
  · have hlast : i = h.nodeCount := by omega
    subst hlast
    have hlevel : r.level h.nodeCount = level := by simp [HnswIndex.level, hnodes, nodeCount]
    rw [hlevel] at hne
    rw [hL.offset_last hR hnodes hconfig (Nat.pos_of_ne_zero hne)]
    exact Nat.ne_of_lt (hfits.resolve_left hne)

/-- One call keeps what a file needs, as long as the offset it stores fits. -/
theorem add_storable {dimension : Dimension} {h r : HnswIndex} (hs : Storable h dimension)
    (hsize : h.nodeCount < view.size) (hr : add std view levelOf h h.nodeCount = .ok r)
    (hfits : (h.randomLevel levelOf).1 = 0 ∨ h.upperLinks.length < 4294967296) :
    Storable r dimension ∧ r.nodeLevel = h.nodeLevel ++ [(h.randomLevel levelOf).1] ∧
      r.config = h.config := by
  obtain ⟨g, hg, hI, hnodes, hconfig, -, hlive, -⟩ :=
    add_invariant std view hs.invariant levelOf hfits hsize
  have hgr : g = r := Except.ok.inj (hg.symm.trans hr)
  subst hgr
  have hcount : g.nodeCount = h.nodeCount + 1 := by simp [nodeCount, hnodes]
  refine ⟨⟨hI, ?_, hconfig ▸ hs.config, hconfig ▸ hs.fits, hs.dimension_pos, hs.dimension_le, ?_,
    ?_⟩, hnodes, hconfig⟩
  · exact addWithLevel_withRng_writable std view _ hs.writable
      hs.invariant.graph.layout.offsets_length hs.config.m_le (h.randomLevel_le levelOf) hr
  · exact le_trans (by omega) view.size_le
  · have := hs.liveCount_le
    omega

/-- It must not be the one that stands for none either. -/
theorem add_savable {dimension : Dimension} {h r : HnswIndex} (hs : Savable h dimension)
    (hsize : h.nodeCount < view.size) (hr : add std view levelOf h h.nodeCount = .ok r)
    (hfits : (h.randomLevel levelOf).1 = 0 ∨ h.upperLinks.length < kNoUpperLinks) :
    Savable r dimension := by
  obtain ⟨hr', hnodes, hconfig⟩ := add_storable std view levelOf hs.toStorable hsize hr
    (hfits.imp_right fun h => Nat.lt_succ_of_lt h)
  exact ⟨hr', hs.marked.append hs.invariant.graph.layout hr'.invariant.graph.layout hnodes hconfig
    hfits⟩

theorem adds_savable {n : Nat} {dimension : Dimension} {h r : HnswIndex} (hs : Savable h dimension)
    (hsize : h.nodeCount + n ≤ view.size) (hr : adds std view levelOf h n = .ok r)
    (hfits : r.arenaSize < 4294967296) : Savable r dimension := by
  induction n generalizing h with
  | zero =>
    cases hr
    exact hs
  | succ n ih =>
    obtain ⟨g, hg, ha, -⟩ := add_appended std view levelOf h (by omega)
    have hnext : g.nodeCount + n ≤ view.size := by
      rw [ha.nodeCount]
      omega
    rw [adds, hg] at hr
    obtain ⟨f, hf, hnodes, hconfig, -⟩ := adds_nodeLevel std view levelOf g hnext
    have hfr : f = r := Except.ok.inj (hf.symm.trans hr)
    subst hfr
    have harena : g.arenaSize < 4294967296 := (arenaSize_append hnodes hconfig).trans_lt hfits
    have hlast : (h.randomLevel levelOf).1 = 0 ∨ h.upperLinks.length < kNoUpperLinks := by
      refine (Nat.eq_zero_or_pos _).imp_right fun hpos => ?_
      have hmul : 1 * h.upperStride ≤ (h.randomLevel levelOf).1 * h.upperStride :=
        Nat.mul_le_mul_right _ hpos
      have hm := hs.config.m_ge
      rw [arenaSize, ha.nodeLevel, List.sum_append, List.sum_singleton, Nat.add_mul, upperStride,
        ha.config, ← upperStride, ← hs.invariant.graph.layout.upper_length] at harena
      simp only [upperStride, kNoUpperLinks] at hmul harena ⊢
      omega
    exact ih (add_savable std view levelOf hs (by omega) hg hlast) hnext hr

theorem empty_savable (metric : Metric) {config : HnswConfig} {dimension : Dimension}
    (hconfig : config.Valid) (hef : config.efConstruction < 4294967296 ∧
      config.efSearch < 4294967296) (hdim : dimension ≠ 0 ∧ dimension ≤ kMaxDimension) :
    Savable (empty metric config) dimension where
  invariant := empty_invariant metric config
  writable := empty_writable metric config
  config := hconfig
  fits := hef
  dimension_pos := hdim.1
  dimension_le := hdim.2
  nodeCount_le := Nat.zero_le _
  liveCount_le := le_rfl
  marked := fun i hi => absurd hi (Nat.not_lt_zero i)

/-- A fresh graph that was saved and loaded, and what both then become. -/
theorem adds_read_write (metric : Metric) (config : HnswConfig) (n m : Nat)
    (hconfig : config.validate = .ok ())
    (hef : config.efConstruction < 4294967296 ∧ config.efSearch < 4294967296)
    (hdim : view.dimension ≠ 0 ∧ view.dimension ≤ kMaxDimension) (hsize : n + m ≤ view.size)
    (hn : adds std view levelOf (empty metric config) n = .ok h)
    (hfits : h.arenaSize < 4294967296) :
    ∃ r s, readHnswFile (writeHnswFile h view.dimension) h.nodeCount metric view.dimension =
        .ok (h.withRng h.rngState) ∧
      adds std view levelOf h m = .ok r ∧ adds std view levelOf (h.withRng h.rngState) m = .ok s ∧
      r.nodeLevel = h.nodeLevel ++ drawLevels levelOf config.m m h.rng ∧
      s.nodeLevel = h.nodeLevel ++ drawLevels levelOf config.m m h.rngState ∧
      h.config = config ∧ h.nodeCount + m ≤ view.size := by
  have hempty := empty_savable metric
    ((HnswConfig.validate_eq_ok_iff config).mp hconfig) hef hdim
  have hzero : (empty metric config).nodeCount + n ≤ view.size := by
    simp only [empty, nodeCount, List.length_nil]
    omega
  obtain ⟨g, hg, hnodes, hc, hmetric⟩ := adds_nodeLevel std view levelOf (empty metric config) hzero
  have hgh : g = h := Except.ok.inj (hg.symm.trans hn)
  subst hgh
  have hs := adds_savable std view levelOf hempty hzero hn hfits
  have hcount : g.nodeCount = n := by
    rw [nodeCount, hnodes]
    exact length_drawLevels levelOf config.m n _
  have hread : readHnswFile (writeHnswFile g view.dimension) g.nodeCount metric view.dimension =
      .ok (g.withRng g.rngState) := by
    have hgm : g.metric = metric := hmetric
    rw [← hgm]
    exact hs.read_write
  have hm : g.nodeCount + m ≤ view.size := by omega
  obtain ⟨r, hr, hrn, -⟩ := adds_nodeLevel std view levelOf g hm
  obtain ⟨s, hl, hsn⟩ := adds_withRng_nodeLevel std view levelOf g g.rngState hm
  have hgc : g.config = config := hc
  rw [hgc] at hrn hsn
  exact ⟨r, s, hread, hr, hl, hrn, hsn, hgc, hm⟩

/-- A graph that is saved and loaded becomes what the other becomes, if and only if
its generator draws the levels that the other's would have drawn: it is seeded with
the number drawn next, not with the state. -/
theorem adds_read_write_iff (metric : Metric) (config : HnswConfig) (n m : Nat)
    (hconfig : config.validate = .ok ())
    (hef : config.efConstruction < 4294967296 ∧ config.efSearch < 4294967296)
    (hdim : view.dimension ≠ 0 ∧ view.dimension ≤ kMaxDimension) (hsize : n + m ≤ view.size)
    (hn : adds std view levelOf (empty metric config) n = .ok h)
    (hfits : h.arenaSize < 4294967296) :
    ∃ loaded r s, readHnswFile (writeHnswFile h view.dimension) h.nodeCount metric view.dimension =
        .ok loaded ∧
      adds std view levelOf h m = .ok r ∧ adds std view levelOf loaded m = .ok s ∧
      (SameGraph r s ↔ drawLevels levelOf config.m m (splitmix64 h.rng).2 =
        drawLevels levelOf config.m m h.rng) := by
  obtain ⟨r, s, hread, hr, hl, hrn, hsn, hc, hm⟩ :=
    adds_read_write std view levelOf metric config n m hconfig hef hdim hsize hn hfits
  refine ⟨_, r, s, hread, hr, hl, fun hsame => ?_, fun hlevels => ?_⟩
  · have he := hsame.nodeLevel
    rw [hrn, hsn] at he
    exact List.append_cancel_left he
  · obtain ⟨last, hlast⟩ := adds_withRng std view levelOf h h.rngState
      (by rw [hc]; exact hlevels) hm hr
    rw [Except.ok.inj (hl.symm.trans hlast)]
    exact ⟨rfl, fun _ _ => rfl, rfl, rfl⟩

end Adds

/-- `-ln(u / 2^24) / ln(m)` without rounding; zero stands for the least `float`. -/
def exactLevel (m : Nat) (u : BitVec 64) : Nat :=
  if u = 0 then Nat.log m (2 ^ 126) else Nat.log m (2 ^ 24 / u.toNat)

/-- Three slots at one distance. -/
def evenView : SlotView Nat := ⟨1, 3, by decide, fun _ _ => 0, fun _ => true⟩

/-- A graph of one node, with its generator one step after the seed. -/
def oneNode (seed : BitVec 64) : HnswIndex :=
  ⟨.cosine, ⟨2, 2, 1, seed⟩, [0], [0, 4294967295, 4294967295, 4294967295, 4294967295],
    [], [4294967295], 0, 0, 1, (splitmix64 seed).1⟩

theorem adds_oneNode (seed : BitVec 64) (hseed : seed = 1 ∨ seed = 15) :
    adds .insertion evenView exactLevel (empty .cosine ⟨2, 2, 1, seed⟩) 1 = .ok (oneNode seed) := by
  obtain rfl | rfl := hseed <;> decide +kernel

/-- Seed 15 draws level 0 twice from either generator. -/
theorem adds_read_write_iff_two :
    ∃ loaded r s, readHnswFile (writeHnswFile (oneNode 15) 1) 1 .cosine 1 = .ok loaded ∧
      adds .insertion evenView exactLevel (oneNode 15) 2 = .ok r ∧
      adds .insertion evenView exactLevel loaded 2 = .ok s ∧ SameGraph r s := by
  have hdrawn : drawLevels exactLevel 2 2 (splitmix64 (oneNode 15).rng).2 =
      drawLevels exactLevel 2 2 (oneNode 15).rng := by decide +kernel
  obtain ⟨loaded, r, s, hread, hr, hs, hiff⟩ := adds_read_write_iff .insertion evenView exactLevel
    .cosine ⟨2, 2, 1, 15⟩ 1 2 rfl (by decide) (by decide) (by decide)
    (adds_oneNode 15 (.inr rfl)) (by decide)
  exact ⟨loaded, r, s, hread, hr, hs, hiff.mpr hdrawn⟩

/-- Seed 1: the node added after a save and load has level 1 and not 0. -/
theorem read_write_then_add_differs :
    ¬ ∀ h loaded r s, adds .insertion evenView exactLevel (empty .cosine ⟨2, 2, 1, 1⟩) 1 = .ok h →
      readHnswFile (writeHnswFile h 1) h.nodeCount .cosine 1 = .ok loaded →
      adds .insertion evenView exactLevel h 1 = .ok r →
      adds .insertion evenView exactLevel loaded 1 = .ok s → SameGraph r s := by
  intro hclaim
  obtain ⟨r, s, hread, hr, hs, hrn, hsn, -⟩ := adds_read_write .insertion evenView exactLevel
    .cosine ⟨2, 2, 1, 1⟩ 1 1 rfl (by decide) (by decide) (by decide)
    (adds_oneNode 1 (.inl rfl)) (by decide)
  have hdrawn : drawLevels exactLevel 2 1 (oneNode 1).rngState ≠
      drawLevels exactLevel 2 1 (oneNode 1).rng := by decide +kernel
  have he := (hclaim _ _ r s (adds_oneNode 1 (.inl rfl)) hread hr hs).nodeLevel
  rw [hrn, hsn] at he
  exact hdrawn (List.append_cancel_left he)

end HnswIndex

end VectorDb.Index
