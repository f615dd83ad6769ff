import VectorDb.Index.HnswLoad
import VectorDb.Index.HnswReload
import VectorDb.Lib.Transition

/-!
The graphs that calls of `add` and `remove` reach, over a store that may change from
one call to the next, and what their files give back.
-/
set_option autoImplicit false

namespace VectorDb.Index

open VectorDb.Lib

namespace HnswIndex

section Runs
variable {K : Type} [BEq K] [LT K] [DecidableLT K] (std : StdAlgorithms (Candidate K))
variable (levelOf : Nat → BitVec 64 → Nat)

/-- Each state that is added to has to be `allowed`. -/
def graphRuns (allowed : HnswIndex → Prop) : Transition HnswIndex where
  start h := ∃ metric config, create metric config = .ok h
  step h g :=
    (allowed h ∧ ∃ (view : SlotView K) (id : LocalId), add std view levelOf h id = .ok g) ∨
      ∃ id, g = h.remove id

/-- The next node has no upper layers, or the place where they begin is a 32-bit
number other than the one that stands for none. -/
def OffsetFits (h : HnswIndex) : Prop :=
  (h.randomLevel levelOf).1 = 0 ∨ h.upperLinks.length < kNoUpperLinks

variable {std levelOf} {h g : HnswIndex} {dimension : Dimension}

theorem addWithLevel_eq_ok {view : SlotView K} {narrow : Nat → Nat} {id level : Nat}
    (hg : addWithLevel std view narrow h id level = .ok g) :
    id = h.nodeCount ∧ h.nodeCount < view.size := by
  by_cases hid : id = h.nodeCount
  · refine ⟨hid, Nat.lt_of_not_le fun hsize => ?_⟩
    rw [addWithLevel, if_neg (not_not.mpr hid), if_pos (hid ▸ hsize)] at hg
    cases hg
  · rw [addWithLevel, if_pos hid] at hg
    cases hg

theorem add_eq_ok {view : SlotView K} {id : LocalId} (hg : add std view levelOf h id = .ok g) :
    id = h.nodeCount ∧ h.nodeCount < view.size := by
  have hid := addWithLevel_eq_ok (h := h.withRng (h.randomLevel levelOf).2) hg
  rwa [withRng_nodeCount] at hid

theorem remove_eq (h : HnswIndex) (id : LocalId) :
    ∃ n, n ≤ h.liveCount ∧ h.remove id = { h with liveCount := n } := by
  unfold remove
  split
  · exact ⟨h.liveCount, le_rfl, rfl⟩
  · split
    · exact ⟨h.liveCount - 1, Nat.sub_le _ _, rfl⟩
    · exact ⟨h.liveCount, le_rfl, rfl⟩

/-- The number of live nodes is not part of the graph. -/
theorem Invariant.withLiveCount (hI : h.Invariant) (n : Nat) :
    ({ h with liveCount := n } : HnswIndex).Invariant :=
  ⟨⟨⟨hI.graph.layout.offsets_length, hI.graph.layout.layer0_length, hI.graph.layout.upper_length,
    hI.graph.layout.offset, hI.graph.layout.count_le⟩, hI.graph.nodup, hI.graph.irrefl,
    hI.graph.reaches⟩, hI.level_le, hI.entry, hI.entry_empty⟩

theorem remove_savable (hs : Savable h dimension) (id : LocalId) :
    Savable (h.remove id) dimension := by
  obtain ⟨n, hn, heq⟩ := remove_eq h id
  rw [heq]
  exact ⟨⟨hs.invariant.withLiveCount n, ⟨hs.writable.words, hs.writable.offsets,
    hs.writable.levels, hs.writable.entryPoint, hs.writable.maxLevel_le, hs.writable.flat⟩,
    hs.config, hs.fits, hs.dimension_pos, hs.dimension_le, hs.nodeCount_le,
    hn.trans hs.liveCount_le⟩, hs.marked⟩

/-- What one step keeps. -/
theorem step_savable (hs : Savable h dimension)
    (hstep : (graphRuns std levelOf (OffsetFits levelOf)).step h g) : Savable g dimension := by
  obtain ⟨hfits, view, id, hadd⟩ | ⟨id, rfl⟩ := hstep
  · obtain ⟨rfl, hsize⟩ := add_eq_ok hadd
    exact add_savable std view levelOf hs hsize hadd hfits
  · exact remove_savable hs id

theorem step_config {allowed : HnswIndex → Prop} (hstep : (graphRuns std levelOf allowed).step h g) :
    g.config = h.config := by
  obtain ⟨-, view, id, hadd⟩ | ⟨id, rfl⟩ := hstep
  · obtain ⟨rfl, hsize⟩ := add_eq_ok hadd
    obtain ⟨r, hr, ha, -⟩ := add_appended std view levelOf h hsize
    cases hadd.symm.trans hr
    exact ha.config
  · obtain ⟨n, -, heq⟩ := remove_eq h id
    rw [heq]

theorem reachable_savable (hr : (graphRuns std levelOf (OffsetFits levelOf)).Reachable h)
    (hef : h.config.efConstruction < 4294967296 ∧ h.config.efSearch < 4294967296)
    (hdim : dimension ≠ 0 ∧ dimension ≤ kMaxDimension) : Savable h dimension := by
  induction hr with
  | start hstart =>
    obtain ⟨metric, config, hcreate⟩ := hstart
    cases hv : config.validate with
    | error e =>
      rw [create, hv] at hcreate
      cases hcreate
    | ok u =>
      rw [create, hv] at hcreate
      cases hcreate
      exact empty_savable metric ((HnswConfig.validate_eq_ok_iff config).mp hv) hef hdim
  | step _ hstep ih => exact step_savable (ih (step_config hstep ▸ hef)) hstep

theorem searchFrom_withRng (h : HnswIndex) (rng : BitVec 64) (key : LocalId → K)
    (live : LocalId → Bool) (k ef : Nat) :
    searchFrom std (h.withRng rng) key live k ef = searchFrom std h key live k ef := by
  have hclosed : ∀ l, h.ClosedAt l fun _ => True := fun _ _ _ _ _ => trivial
  have hlayer : ∀ entries, searchLayer std (h.withRng rng) key entries ef 0 =
      searchLayer std h key entries ef 0 := fun entries =>
    searchLayer_congr (aside_withRng rng) std (hclosed 0) (fun _ _ => rfl) (fun _ _ => trivial) ef
  have hdescend : descendLayers (h.withRng rng) key 0 h.maxLevel h.entryPoint =
      descendLayers h key 0 h.maxLevel h.entryPoint :=
    descendLayers_congr (aside_withRng rng) hclosed (fun _ _ _ => trivial) (fun _ _ _ => rfl) 0
      h.maxLevel trivial
  unfold searchFrom
  dsimp only
  rw [hlayer, (aside_withRng rng).entryPoint, (aside_withRng rng).maxLevel, hdescend]

/-- The generator takes no part in a search. -/
theorem search_withRng (h : HnswIndex) (rng : BitVec 64) (view : SlotView K) (query : Query K)
    (params : SearchParams) :
    search std (h.withRng rng) view query params = search std h view query params := by
  unfold search
  rw [searchFrom_withRng]
  rfl

/-- What a file of `h` has to give back. -/
structure ReadsBack (std : StdAlgorithms (Candidate K)) (h : HnswIndex) (dimension : Dimension)
    (loaded : HnswIndex) : Prop where
  read : readHnswFile (writeHnswFile h dimension) h.nodeCount h.metric dimension = .ok loaded
  nodeLevel : loaded.nodeLevel = h.nodeLevel
  layer0Links : loaded.layer0Links = h.layer0Links
  upperLinks : loaded.upperLinks = h.upperLinks
  upperOffsets : loaded.upperOffsets = h.upperOffsets
  entryPoint : loaded.entryPoint = h.entryPoint
  maxLevel : loaded.maxLevel = h.maxLevel
  liveCount : loaded.liveCount = h.liveCount
  metric : loaded.metric = h.metric
  config : loaded.config = h.config
  search : ∀ (view : SlotView K) (query : Query K) (params : SearchParams),
    search std loaded view query params = search std h view query params

/-- A graph whose offsets all fit is read back from its file. -/
theorem reachable_reads_back
    (hr : (graphRuns std levelOf (OffsetFits levelOf)).Reachable h)
    (hef : h.config.efConstruction < 4294967296 ∧ h.config.efSearch < 4294967296)
    (hdim : dimension ≠ 0 ∧ dimension ≤ kMaxDimension) :
    ∃ loaded, ReadsBack std h dimension loaded :=
  ⟨_, (reachable_savable hr hef hdim).read_write, rfl, rfl, rfl, rfl, rfl, rfl, rfl, rfl, rfl,
    search_withRng h h.rngState⟩

theorem adds_reachable {allowed : HnswIndex → Prop} {view : SlotView K} {n : Nat} {r : HnswIndex}
    (hr : (graphRuns std levelOf allowed).Reachable h)
    (hallowed : ∀ k < n, ∀ g, adds std view levelOf h k = .ok g → allowed g)
    (hadds : adds std view levelOf h n = .ok r) : (graphRuns std levelOf allowed).Reachable r := by
  induction n generalizing h with
  | zero =>
    cases hadds
    exact hr
  | succ n ih =>
    unfold adds at hadds
    cases hadd : add std view levelOf h h.nodeCount with
    | error e =>
      rw [hadd] at hadds
      cases hadds
    | ok g =>
      rw [hadd] at hadds
      refine ih (hr.step (.inl ⟨hallowed 0 (by omega) h rfl, view, h.nodeCount, hadd⟩))
        (fun k hk g' hg' => hallowed (k + 1) (by omega) g' ?_) hadds
      rw [adds, hadd]
      exact hg'

/-- Four slots on a line. -/
def fourOnALine : SlotView Nat := ⟨1, 4, by decide, fun i j => i - j + (j - i), fun _ => true⟩

/-- Four nodes with seed 15, of which the last has two upper layers; one is removed. -/
theorem reachable_reads_back_four : ∃ h loaded : HnswIndex, h.nodeLevel = [0, 0, 0, 2] ∧
    h.liveCount = 3 ∧ ReadsBack (K := Nat) .insertion h 1 loaded := by
  have hstart : (graphRuns (K := Nat) .insertion exactLevel (OffsetFits exactLevel)).Reachable
      (empty .cosine ⟨2, 2, 1, 15⟩) := .start ⟨.cosine, ⟨2, 2, 1, 15⟩, rfl⟩
  have hadds : (adds .insertion fourOnALine exactLevel (empty .cosine ⟨2, 2, 1, 15⟩) 4).toOption.any
      fun h => decide (h.nodeLevel = [0, 0, 0, 2] ∧ (h.remove 1).liveCount = 3 ∧
        h.config = ⟨2, 2, 1, 15⟩) := by decide +kernel
  have hsmall : ∀ k < 4, (adds .insertion fourOnALine exactLevel (empty .cosine ⟨2, 2, 1, 15⟩)
      k).toOption.all fun g => decide (g.upperLinks.length < kNoUpperLinks) := by decide +kernel
  simp only [Option.any_eq_true, Except.toOption_eq_some, decide_eq_true_eq] at hadds
  obtain ⟨h, hadds, hlevels, hlive, hconfig⟩ := hadds
  have hr := adds_reachable hstart (fun k hk g hg => .inr (by
    have hg := hg ▸ hsmall k hk
    exact of_decide_eq_true hg)) hadds
  obtain ⟨n, -, hremoved⟩ := remove_eq h 1
  obtain ⟨loaded, hback⟩ : ∃ loaded, ReadsBack (K := Nat) .insertion (h.remove 1) 1 loaded :=
    reachable_reads_back (hr.step (.inr ⟨1, rfl⟩)) (by rw [hremoved, hconfig]; decide) (by decide)
  exact ⟨h.remove 1, loaded, by rw [hremoved]; exact hlevels, hlive, hback⟩

end Runs

section Rejected
variable {h g : HnswIndex} {dimension : Dimension}

theorem validateNode_offset {nodeCount : Nat} {levels : List Nat} {f : HnswFileHeader}
    {offsets : List Nat} {layer0 upper : List LocalId} {node : Nat}
    (h : validateNode nodeCount levels f offsets layer0 upper node = .ok ())
    (hlevel : levels.getD node 0 ≠ 0) : offsets.getD node 0 ≠ kNoUpperLinks := by
  unfold validateNode at h
  obtain ⟨_, -, h⟩ := Except.bind_eq_ok.mp h
  obtain ⟨_, -, h⟩ := Except.bind_eq_ok.mp h
  rw [if_neg hlevel] at h
  obtain ⟨_, hoffset, -⟩ := Except.bind_eq_ok.mp h
  exact (Persistence.check_eq_ok.mp hoffset).1

/-- A file that is accepted has no node whose offset stands for none. -/
theorem marked_of_read (hs : Storable h dimension)
    (hread : readHnswFile (writeHnswFile h dimension) h.nodeCount h.metric dimension = .ok g) :
    h.Marked := by
  obtain ⟨f, hf⟩ := readHnswFile_eq_ok hread
  have hheader := hf.header
  rw [hs.parse_write] at hheader
  cases hheader
  obtain ⟨hlevels, hoffsets, -, -⟩ := hs.recordable.arrays hs.writable
  intro i hi hlevel
  have hnode := hf.nodes i hi
  rw [hf.levels, hf.offsets] at hnode
  have hcount : (headerOf h dimension).nodeCount = h.nodeCount := rfl
  rw [hcount, hlevels, hoffsets] at hnode
  exact validateNode_offset hnode hlevel

end Rejected

section Tall

/-- Every node reaches layer 85. -/
def tallLevel : Nat → BitVec 64 → Nat := fun _ _ => 85

theorem drawLevels_tallLevel (m n : Nat) (rng : BitVec 64) :
    drawLevels tallLevel m n rng = List.replicate n 85 := by
  induction n generalizing rng with
  | zero => rfl
  | succ n ih => rw [drawLevels, ih, List.replicate_succ, tallLevel]; rfl

def tallView (size : Nat) (h : size ≤ kMaxVectorCount) : SlotView Nat :=
  ⟨1, size, h, fun _ _ => 0, fun _ => true⟩

def tallConfig : HnswConfig := ⟨2, 2, 1, 0⟩

/-- `n` tall nodes take `255 * n` entries of the arena. -/
theorem adds_tall {n : Nat} (hn : n + 1 ≤ kMaxVectorCount) (hfull : n * 85 * 3 < 4294967296) :
    ∃ h, adds .insertion (tallView (n + 1) hn) tallLevel (empty .l2Squared tallConfig) n = .ok h ∧
      Savable h 1 ∧ h.config = tallConfig ∧ h.nodeCount = n ∧
      h.upperLinks.length = n * 85 * 3 := by
  have hempty : Savable (empty .l2Squared tallConfig) 1 :=
    empty_savable .l2Squared ((HnswConfig.validate_eq_ok_iff _).mp rfl) (by decide) (by decide)
  have hsize : (empty .l2Squared tallConfig).nodeCount + n ≤ (tallView (n + 1) hn).size := by
    show 0 + n ≤ n + 1
    omega
  obtain ⟨h, hh, hnodes, hconfig, -⟩ := adds_nodeLevel .insertion (tallView (n + 1) hn) tallLevel
    (empty .l2Squared tallConfig) hsize
  rw [drawLevels_tallLevel] at hnodes
  have hlevels : h.nodeLevel = List.replicate n 85 := hnodes
  have harena : h.arenaSize = n * 85 * 3 := by
    rw [arenaSize, hlevels, List.sum_replicate, upperStride, hconfig]
    rfl
  have hs := adds_savable .insertion (tallView (n + 1) hn) tallLevel hempty hsize hh (by omega)
  refine ⟨h, hh, hs, hconfig, by rw [nodeCount, hlevels, List.length_replicate], ?_⟩
  rw [hs.invariant.graph.layout.upper_length, ← harena]
  rfl

/-- When the arena holds 2^32 - 1 entries, the next tall node makes the file one that
is rejected. -/
theorem tall_graph_rejected {n : Nat} (hn : n + 1 ≤ kMaxVectorCount)
    (hfull : n * 85 * 3 = kNoUpperLinks) :
    ∃ r, (graphRuns (K := Nat) .insertion tallLevel fun _ => True).Reachable r ∧
      r.config = tallConfig ∧
      ∀ g, readHnswFile (writeHnswFile r 1) r.nodeCount r.metric 1 ≠ .ok g := by
  have hk : kNoUpperLinks = 4294967295 := rfl
  obtain ⟨h, hh, hs, htall, hcount, hupper⟩ := adds_tall hn (by omega)
  have hsize : h.nodeCount < (tallView (n + 1) hn).size := by
    show h.nodeCount < n + 1
    omega
  obtain ⟨r, hr, -, -⟩ := add_appended .insertion (tallView (n + 1) hn) tallLevel h hsize
  obtain ⟨hstorable, hnodes, hconfig⟩ := add_storable .insertion (tallView (n + 1) hn) tallLevel
    hs.toStorable hsize hr (.inr (by omega))
  have hlast : r.upperOffsets.getD h.nodeCount 0 = kNoUpperLinks := by
    rw [hs.invariant.graph.layout.offset_last hstorable.invariant.graph.layout hnodes hconfig
      (show 0 < 85 by decide), hupper, hfull]
  have hlevel : r.level h.nodeCount = 85 := by
    simp [HnswIndex.level, hnodes, nodeCount, randomLevel, tallLevel]
  refine ⟨r, ?_, hconfig.trans htall, fun g hread => ?_⟩
  · exact (adds_reachable (.start ⟨.l2Squared, tallConfig, rfl⟩) (fun _ _ _ _ => trivial) hh).step
      (.inl ⟨trivial, _, _, hr⟩)
  · refine marked_of_read hstorable hread h.nodeCount ?_ (by rw [hlevel]; decide) hlast
    simp [nodeCount, hnodes]

theorem tall_graph_not_read_back :
    ¬ ∀ (h : HnswIndex) (dimension : Dimension),
      (graphRuns (K := Nat) .insertion tallLevel fun _ => True).Reachable h →
      h.config.efConstruction < 4294967296 ∧ h.config.efSearch < 4294967296 →
      dimension ≠ 0 ∧ dimension ≤ kMaxDimension →
      ∃ loaded, ReadsBack (K := Nat) .insertion h dimension loaded := by
  intro hall
  obtain ⟨r, hr, hconfig, hrejected⟩ := tall_graph_rejected (n := 16843009) (by decide) rfl
  obtain ⟨g, hg⟩ := hall r 1 hr (by rw [hconfig]; decide) (by decide)
  exact hrejected g hg.read

end Tall

end HnswIndex

end VectorDb.Index
