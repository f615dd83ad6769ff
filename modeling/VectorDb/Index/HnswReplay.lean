import VectorDb.Index.HnswRuns

/-!
Adding the same nodes from two stores that give them the same rank keys: the graphs are the
same, whatever the stores hold besides, and so is what later calls make of them.
-/
set_option autoImplicit false

namespace VectorDb.Index

open VectorDb.Lib

namespace HnswIndex

def withLive (h : HnswIndex) (liveCount : Nat) : HnswIndex := { h with liveCount := liveCount }

@[simp] theorem withLive_withLive (h : HnswIndex) (m n : Nat) :
    (h.withLive m).withLive n = h.withLive n := rfl

theorem aside_withLive (n : Nat) : Aside fun h => h.withLive n where
  config _ := rfl
  nodeLevel _ := rfl
  layer0Links _ := rfl
  upperLinks _ := rfl
  upperOffsets _ := rfl
  entryPoint _ := rfl
  maxLevel _ := rfl
  withLinkArray h l a := by
    unfold withLinkArray
    split <;> rfl
  withEntry _ _ _ := rfl

section Live
variable {K : Type} [BEq K] [LT K] [DecidableLT K] (std : StdAlgorithms (Candidate K))
variable (view : SlotView K)

theorem addWithLevel_withLive (narrow : Nat → Nat) (h : HnswIndex) (m id level : Nat) :
    addWithLevel std view narrow (h.withLive m) id level =
      (addWithLevel std view narrow h id level).map fun r => r.withLive (m + 1) :=
  addWithLevel_congr std keeps_all (aside_withLive (m + 1)) (fun _ _ _ _ => rfl) (aside_withLive m)
    rfl (fun _ => ⟨trivial, fun _ _ => trivial, trivial⟩) Iff.rfl

/-- The live count takes no part in a call, which counts one more. -/
theorem add_withLive (levelOf : Nat → BitVec 64 → Nat) (h : HnswIndex) (m id : Nat) :
    add std view levelOf (h.withLive m) id =
      (add std view levelOf h id).map fun r => r.withLive (m + 1) :=
  addWithLevel_withLive std view narrow32 (h.withRng (h.randomLevel levelOf).2) m id _

end Live

/-- The lists of the nodes of `g` name nodes that reach their layer. -/
def Reaching (g h : HnswIndex) : Prop :=
  SameNodes g h ∧ h.Layout ∧ ∀ i l, h.HasBlock i l → ∀ j ∈ h.block i l, h.HasBlock j l

theorem Reaching.relinked {g h r : HnswIndex} (hr : Reaching g h) {i l : Nat} {ids : List LocalId}
    (hrel : Relinked h r i l ids) (hids : ∀ j ∈ ids, g.HasBlock j l) : Reaching g r := by
  obtain ⟨hs, -, hreach⟩ := hr
  have hsame := hs.trans hrel.same
  refine ⟨hsame, hrel.layout, fun j k hb m hm => ?_⟩
  have hb' := (hrel.same.hasBlock j k).mp hb
  by_cases hne : (i, l) = (j, k)
  · cases hne
    rw [hrel.block] at hm
    exact (hsame.hasBlock m l).mpr (hids m hm)
  · rw [hrel.frame j k hb' hne] at hm
    exact (hrel.same.hasBlock m k).mpr (hreach j k hb' m hm)

theorem keeps_reaching (g : HnswIndex) : Keeps (Reaching g) fun l i => g.HasBlock i l where
  below _ _ hi := hi.mono (Nat.le_succ _)
  block h i l hr hi j hj :=
    (hr.1.hasBlock j l).mp (hr.2.2 i l ((hr.1.hasBlock i l).mpr hi) j hj)
  setNeighbours h i l ids hr hi hids hlen :=
    hr.relinked (setNeighbours_relinked hr.2.1 ((hr.1.hasBlock i l).mpr hi) hlen) hids
  pushBlock h i l j hr hi hj hroom := by
    have hb := (hr.1.hasBlock i l).mpr hi
    refine hr.relinked (pushBlock_relinked hr.2.1 hb hroom) fun m hm => ?_
    rcases List.mem_append.mp hm with hm | hm
    · exact (hr.1.hasBlock m l).mp (hr.2.2 i l hb m hm)
    · rwa [List.mem_singleton.mp hm]

section Words
variable {h : HnswIndex} {P : Nat → Prop}

theorem WordsIn.grow (hw : WordsIn h.config P h) (hzero : P 0)
    (hinvalid : P kInvalidLocalId) (narrow : Nat → Nat) (level : Nat) :
    WordsIn h.config P (h.grow narrow level) := by
  refine ⟨rfl, fun l x hx => ?_⟩
  rcases grow_linkArray_mem hx with hx | rfl | rfl
  · exact hw.2 l x hx
  · exact hinvalid
  · exact hzero

end Words

section Agree
variable {K : Type}

/-- A slot that both stores have in common, or a place where neither has one. -/
def Shared (view view' : SlotView K) (n i : Nat) : Prop :=
  i < n ∨ (view.size ≤ i ∧ view'.size ≤ i)

/-- Two stores that give the same rank keys to their first `n` slots. -/
structure Agree (view view' : SlotView K) (n : Nat) : Prop where
  size_le : n ≤ view.size ∧ n ≤ view'.size
  key : ∀ i j, Shared view view' n i → Shared view view' n j → view'.key i j = view.key i j

theorem shared_invalid (view view' : SlotView K) (n : Nat) :
    Shared view view' n kInvalidLocalId := by
  have hmax : kMaxVectorCount ≤ kInvalidLocalId := by decide
  exact .inr ⟨view.size_le.trans hmax, view'.size_le.trans hmax⟩

/-- What holds while the first `n` nodes are added. As long as these are few, no offset is cut
off and the graph is sound; where they are many, counts too are numbers of nodes, and it does not
matter which blocks overlap. -/
structure Replayable (view view' : SlotView K) (n : Nat) (h : HnswIndex) : Prop where
  m_le : h.config.m ≤ 512
  upper_length : h.upperLinks.length ≤ h.nodeCount * 130302
  graph : (n ≤ 1024 ∧ h.Invariant) ∨ (1024 < n ∧ WordsIn h.config (Shared view view' n) h ∧
    Shared view view' n h.entryPoint)

variable {view view' : SlotView K} {n : Nat} {h : HnswIndex}

theorem empty_replayable (metric : Metric) {config : HnswConfig} (hm : config.m ≤ 512) :
    Replayable view view' n (empty metric config) := by
  refine ⟨hm, Nat.zero_le _, ?_⟩
  by_cases hn : n ≤ 1024
  · exact .inl ⟨hn, empty_invariant metric config⟩
  · refine .inr ⟨Nat.lt_of_not_le hn, ⟨rfl, fun l x hx => ?_⟩, shared_invalid view view' n⟩
    unfold linkArray at hx
    split at hx <;> cases hx

theorem Replayable.withLive (hr : Replayable view view' n h) (m : Nat) :
    Replayable view view' n (h.withLive m) :=
  ⟨hr.m_le, hr.upper_length, hr.graph.imp (And.imp_right fun hI => hI.withLiveCount m) id⟩

/-- Where there are more nodes than a list can count. -/
theorem keeps_shared {config : HnswConfig} (hm : config.m ≤ 512) (hn : 1024 < n) :
    Keeps (WordsIn config (Shared view view' n)) fun _ => Shared view view' n :=
  keeps_wordsIn fun count l hcount => .inl (by have := maxNeighbours_le hm l; omega)

variable [BEq K] [LT K] [DecidableLT K] (std : StdAlgorithms (Candidate K))
variable (levelOf : Nat → BitVec 64 → Nat)

/-- The new node of a small graph. -/
theorem addWithLevel_small (ha : Agree view view' n) (hI : h.Invariant) (hlt : h.nodeCount < n)
    {level : Nat} (hlevel : level ≤ 254) (hfits : h.upperLinks.length < 4294967296) (m : Nat) :
    addWithLevel std view' narrow32 (h.withLive m) h.nodeCount level =
      (addWithLevel std view narrow32 h h.nodeCount level).map fun g => g.withLive (m + 1) := by
  have hg := @grow_grown h narrow32 level hI.graph.layout (Nat.mod_eq_of_lt hfits) hlevel
  have hbelow : ∀ i, (h.grow narrow32 level).HasBlock i 0 → Shared view view' n i := fun i hb =>
    .inl (by have := hb.1; rw [hg.nodeCount] at this; omega)
  refine addWithLevel_congr std (keeps_reaching (h.grow narrow32 level)) (aside_withLive (m + 1))
    (fun i j hi hj => ha.key i j (hbelow i hi) (hbelow j hj)) (aside_withLive m) rfl
    (fun hentry => ⟨⟨.refl _, hg.layout, ?_⟩, fun k hk => ?_, ?_⟩) ?_
  · exact (hg.graph hI.graph).1.reaches
  · exact (hg.hasBlock_iff _ _).mpr (.inr ⟨rfl, by omega⟩)
  · have hpos : 0 < h.nodeCount := by
      by_contra hzero
      exact hentry (hI.entry_empty (by omega))
    exact (hg.hasBlock_iff _ _).mpr (.inl (hI.entry hpos))
  · have := ha.size_le
    omega

/-- The new node of a graph of many. -/
theorem addWithLevel_many (ha : Agree view view' n) (hn : 1024 < n) (hm : h.config.m ≤ 512)
    (hw : WordsIn h.config (Shared view view' n) h) (hentry : Shared view view' n h.entryPoint)
    (hlt : h.nodeCount < n) (level m : Nat) :
    addWithLevel std view' narrow32 (h.withLive m) h.nodeCount level =
        (addWithLevel std view narrow32 h h.nodeCount level).map (fun g => g.withLive (m + 1)) ∧
      ∀ r, addWithLevel std view narrow32 h h.nodeCount level = .ok r →
        WordsIn h.config (Shared view view' n) r ∧ Shared view view' n r.entryPoint := by
  let g := h.grow narrow32 level
  have hkeeps : Keeps (WordsIn h.config (Shared view view' n)) fun _ => Shared view view' n :=
    keeps_shared hm hn
  have hg : WordsIn h.config (Shared view view' n) g :=
    hw.grow (.inl (by omega)) (shared_invalid view view' n) narrow32 level
  have hid : Shared view view' n h.nodeCount := .inl hlt
  have hsize := ha.size_le
  refine ⟨addWithLevel_congr std hkeeps (aside_withLive (m + 1)) ha.key (aside_withLive m) rfl
    (fun _ => ⟨hg, fun _ _ => hid, hentry⟩) (by omega), fun r hr => ?_⟩
  have hwired : WordsIn h.config (Shared view view' n) (wireLayers std view h.nodeCount
      (min level g.maxLevel + 1) g
      [descendLayers g (view.key h.nodeCount) level g.maxLevel g.entryPoint]) :=
    (wired_congr std hkeeps aside_id (fun _ _ _ _ => rfl) hg (fun _ _ => hid) hentry).2
  unfold addWithLevel at hr
  rw [if_neg (by simp), if_neg (by omega)] at hr
  split at hr
  · cases hr
    exact ⟨hg, hid⟩
  · unfold connect at hr
    dsimp only at hr
    split at hr
    · cases hr
      exact ⟨hwired, hid⟩
    · cases hr
      refine ⟨hwired, ?_⟩
      rw [(wireLayers_sameNodes std view _ _ _ _).entryPoint]
      exact hentry

/-- The node of one call with either store, once its level is drawn. -/
theorem Replayable.addWithLevel (hr : Replayable view view' n h) (ha : Agree view view' n)
    (hlt : h.nodeCount < n) (rng : BitVec 64) {level : Nat} (hlevel : level ≤ 254) {r : HnswIndex}
    (hadd : addWithLevel std view narrow32 (h.withRng rng) h.nodeCount level = .ok r)
    (happ : Appended h r level) :
    Replayable view view' n r ∧
      ∀ m, HnswIndex.addWithLevel std view' narrow32 ((h.withRng rng).withLive m) h.nodeCount level =
        .ok (r.withLive (m + 1)) := by
  obtain ⟨hm, hupper, hgraph⟩ := hr
  have hm' : r.config.m ≤ 512 := by rwa [happ.config]
  have hupper' : r.upperLinks.length ≤ r.nodeCount * 130302 := by
    have hle := happ.upper_length_le hm hlevel
    rw [happ.nodeCount]
    omega
  rcases hgraph with ⟨hsmall, hI⟩ | ⟨hmany, hw, hentry⟩
  · have hfits : h.upperLinks.length < 4294967296 := by omega
    obtain ⟨g, hg, hI', -⟩ := addWithLevel_withRng std view hI rng hlevel (.inr hfits)
      (hlt.trans_le ha.size_le.1)
    cases hadd.symm.trans hg
    refine ⟨⟨hm', hupper', .inl ⟨hsmall, hI'⟩⟩, fun m => ?_⟩
    exact (addWithLevel_small std ha (hI.withRng rng) hlt hlevel hfits m).trans
      (congrArg (Except.map fun g => g.withLive (m + 1)) hadd)
  · have hmany' := addWithLevel_many std (h := h.withRng rng) ha hmany hm hw hentry hlt level
    obtain ⟨hwords, hentry'⟩ := (hmany' 0).2 r hadd
    refine ⟨⟨hm', hupper', .inr ⟨hmany, happ.config ▸ hwords, hentry'⟩⟩, fun m => ?_⟩
    exact (hmany' m).1.trans (congrArg (Except.map fun g => g.withLive (m + 1)) hadd)

/-- One call with either store. -/
theorem Replayable.add (hr : Replayable view view' n h) (ha : Agree view view' n)
    (hlt : h.nodeCount < n) :
    ∃ r level, add std view levelOf h h.nodeCount = .ok r ∧ Appended h r level ∧
      Replayable view view' n r ∧
      ∀ m, add std view' levelOf (h.withLive m) h.nodeCount = .ok (r.withLive (m + 1)) := by
  obtain ⟨r, hadd, happ, -⟩ := add_appended std view levelOf h (hlt.trans_le ha.size_le.1)
  have hstep := hr.addWithLevel std ha hlt (h.randomLevel levelOf).2 (h.randomLevel_le levelOf) hadd
    happ
  exact ⟨r, _, hadd, happ, hstep⟩

end Agree

end HnswIndex

end VectorDb.Index
