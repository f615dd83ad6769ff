import VectorDb.Index.HnswSearch

/-!
What `add` depends on: the rank keys between the nodes it meets, and the places of an index
that lead it there.
-/
set_option autoImplicit false

namespace VectorDb.Index

open VectorDb.Lib

namespace HnswIndex

/-- A change of an index that no search and no wiring notices. -/
structure Aside (f : HnswIndex → HnswIndex) : Prop where
  config : ∀ h, (f h).config = h.config
  nodeLevel : ∀ h, (f h).nodeLevel = h.nodeLevel
  layer0Links : ∀ h, (f h).layer0Links = h.layer0Links
  upperLinks : ∀ h, (f h).upperLinks = h.upperLinks
  upperOffsets : ∀ h, (f h).upperOffsets = h.upperOffsets
  entryPoint : ∀ h, (f h).entryPoint = h.entryPoint
  maxLevel : ∀ h, (f h).maxLevel = h.maxLevel
  withLinkArray : ∀ h l a, f (h.withLinkArray l a) = (f h).withLinkArray l a
  withEntry : ∀ h e m, f { h with maxLevel := m, entryPoint := e } =
    { f h with maxLevel := m, entryPoint := e }

theorem aside_id : Aside id :=
  ⟨fun _ => rfl, fun _ => rfl, fun _ => rfl, fun _ => rfl, fun _ => rfl, fun _ => rfl,
    fun _ => rfl, fun _ _ _ => rfl, fun _ _ _ => rfl⟩

namespace Aside
variable {f : HnswIndex → HnswIndex} (hf : Aside f) (h : HnswIndex)
include hf

theorem nodeCount : (f h).nodeCount = h.nodeCount := by
  simp only [HnswIndex.nodeCount, hf.nodeLevel]

theorem linkArray (l : Nat) : (f h).linkArray l = h.linkArray l := by
  simp only [HnswIndex.linkArray, hf.layer0Links, hf.upperLinks]

theorem linkPos (i l : Nat) : (f h).linkPos i l = h.linkPos i l := by
  simp only [HnswIndex.linkPos, layer0Stride, upperStride, hf.config, hf.upperOffsets]

theorem level (i : Nat) : (f h).level i = h.level i := by
  rw [HnswIndex.level, HnswIndex.level, hf.nodeLevel]

theorem block (i l : Nat) : (f h).block i l = h.block i l := by
  rw [HnswIndex.block, HnswIndex.block, hf.linkArray, hf.linkPos]

theorem neighbours (i l : Nat) : (f h).neighbours i l = h.neighbours i l := by
  rw [HnswIndex.neighbours, HnswIndex.neighbours, hf.nodeCount, hf.level, hf.block]

theorem setNeighbours (i l : Nat) (ids : List LocalId) :
    (f h).setNeighbours i l ids = f (h.setNeighbours i l ids) := by
  simp only [HnswIndex.setNeighbours, hf.linkArray, hf.linkPos, hf.withLinkArray]

end Aside

section Search
variable {K : Type} [LT K] [DecidableLT K] {f : HnswIndex → HnswIndex} (hf : Aside f)
variable {h : HnswIndex} {key key' : LocalId → K} {P : Nat → Prop} {l : Nat}

theorem descendPass_congr {candidates : List LocalId} (hkey : ∀ j ∈ candidates, key' j = key j)
    (current : LocalId) (distance : K) :
    descendPass key' candidates current distance = descendPass key candidates current distance :=
  List.foldl_ext _ _ _ fun s j hj => by rw [hkey j hj]

include hf

theorem descendLoop_congr (hclosed : h.ClosedAt l P) (hkey : ∀ i, P i → key' i = key i)
    (fuel : Nat) {current : LocalId} (distance : K) (hcur : P current) :
    descendLoop (f h) key' l fuel current distance = descendLoop h key l fuel current distance := by
  induction fuel generalizing current distance with
  | zero => rfl
  | succ fuel ih =>
    have hpass := descendPass_congr (fun j hj => hkey j (hclosed current hcur j hj)) current distance
    have hnext : P (descendPass key (h.neighbours current l) current distance).1 :=
      descendPass_mem (hclosed current hcur) hcur
    rw [descendLoop, descendLoop, hf.neighbours, hpass]
    split
    next heq =>
      rw [heq] at hnext
      exact ih _ hnext
    next => rfl

theorem greedyDescend_congr (hclosed : h.ClosedAt l P) (hkey : ∀ i, P i → key' i = key i)
    {entry : LocalId} (he : P entry) :
    greedyDescend (f h) key' entry l = greedyDescend h key entry l := by
  rw [greedyDescend, greedyDescend, hf.nodeCount, hkey entry he]
  exact descendLoop_congr hf hclosed hkey _ _ he

theorem descendLayers_congr {Q : Nat → Nat → Prop} (hclosed : ∀ l, h.ClosedAt l (Q l))
    (hdown : ∀ l i, Q (l + 1) i → Q l i) (hkey : ∀ l i, Q l i → key' i = key i) (low top : Nat)
    {entry : LocalId} (he : Q top entry) :
    descendLayers (f h) key' low top entry = descendLayers h key low top entry := by
  induction top generalizing entry with
  | zero => rfl
  | succ top ih =>
    rw [descendLayers, descendLayers, greedyDescend_congr hf (hclosed (top + 1)) (hkey (top + 1)) he]
    split
    · exact ih (hdown top _ (greedyDescend_mem (hclosed (top + 1)) he))
    · rfl

variable [BEq K] (std : StdAlgorithms (Candidate K))

theorem searchLoop_congr (hclosed : h.ClosedAt l P) (hkey : ∀ i, P i → key' i = key i)
    (ef fuel : Nat) {s : LayerSearch K} (hs : SearchInv key P s) :
    searchLoop std (f h) key' ef l fuel s = searchLoop std h key ef l fuel s := by
  induction fuel generalizing s with
  | zero => rfl
  | succ fuel ih =>
    rw [searchLoop, searchLoop]
    split
    · rfl
    next current hcur =>
      have hlist : ∀ j ∈ h.neighbours current.localId l, P j := hclosed _
        (hs.visited_mem _ (hs.frontier_visited _ (mem_of_getLast?_popHeap hcur)))
      have hoffer : ∀ s : LayerSearch K,
          ((f h).neighbours current.localId l).foldl (offerNeighbour std key' ef) s =
            (h.neighbours current.localId l).foldl (offerNeighbour std key ef) s := by
        intro s
        rw [hf.neighbours]
        exact List.foldl_ext _ _ _ fun s j hj => by
          rw [offerNeighbour, offerNeighbour, hkey j (hlist j hj)]
      dsimp only
      rw [hoffer, ih (hs.pop.offerNeighbours ef hlist)]

theorem searchLayer_congr (hclosed : h.ClosedAt l P) (hkey : ∀ i, P i → key' i = key i)
    {entries : List LocalId} (he : ∀ i ∈ entries, P i) (ef : Nat) :
    searchLayer std (f h) key' entries ef l = searchLayer std h key entries ef l := by
  have hentries : entries.foldl (offerEntry std key') ⟨[], [], []⟩ =
      entries.foldl (offerEntry std key) ⟨[], [], []⟩ :=
    List.foldl_ext _ _ _ fun s i hi => by rw [offerEntry, offerEntry, hkey i (he i hi)]
  rw [searchLayer, searchLayer, hentries, hf.nodeCount]
  exact congrArg (fun s => std.sort candidateBetter s.best)
    (searchLoop_congr hf std hclosed hkey ef _ (searchInv_entries std key he))

end Search

section Selection
variable {K : Type} [BEq K] [LT K] [DecidableLT K] (std : StdAlgorithms (Candidate K))
variable {between between' : LocalId → LocalId → K} {P : Nat → Prop}

theorem selectNeighbours_congr (hbetween : ∀ i j, P i → P j → between' i j = between i j)
    {candidates : List (Candidate K)} (hc : ∀ c ∈ candidates, P c.localId) (limit : Nat) :
    selectNeighbours std between' candidates limit =
      selectNeighbours std between candidates limit := by
  have hpick : ∀ (l : List (Candidate K)) (out : List LocalId), (∀ c ∈ l, P c.localId) →
      (∀ i ∈ out, P i) → l.foldl (pickDiverse between' limit) out =
        l.foldl (pickDiverse between limit) out := by
    intro l
    induction l with
    | nil => exact fun _ _ _ => rfl
    | cons c l ih =>
      intro out hl hout
      have hstep : pickDiverse between' limit out c = pickDiverse between limit out c := by
        have hany : (out.any fun chosen => decide (between' c.localId chosen < c.key)) =
            out.any fun chosen => decide (between c.localId chosen < c.key) := by
          rw [Bool.eq_iff_iff, List.any_eq_true, List.any_eq_true]
          refine exists_congr fun i => and_congr_right fun hi => ?_
          rw [hbetween c.localId i (hl c List.mem_cons_self) (hout i hi)]
        rw [pickDiverse, pickDiverse, hany]
      rw [List.foldl_cons, List.foldl_cons, hstep]
      refine ih _ (fun d hd => hl d (List.mem_cons_of_mem c hd)) fun i hi => ?_
      rcases pickDiverse_cases between limit out c with h | ⟨h, -⟩
      · exact hout i (h ▸ hi)
      · rw [h, List.mem_append, List.mem_singleton] at hi
        rcases hi with hi | rfl
        · exact hout i hi
        · exact hl c List.mem_cons_self
  have hsorted : ∀ c ∈ std.sort candidateBetter candidates, P c.localId := fun c hmem =>
    hc c ((std.sort_perm _ _).mem_iff.mp hmem)
  unfold selectNeighbours
  dsimp only
  rw [hpick _ [] hsorted fun i hi => absurd hi List.not_mem_nil]

end Selection

/-- Indexes whose lists stay in these sets of nodes, one for each layer, when one of them is
rewritten with nodes of its set. -/
structure Keeps (Good : HnswIndex → Prop) (At : Nat → Nat → Prop) : Prop where
  below : ∀ l i, At (l + 1) i → At l i
  block : ∀ h i l, Good h → At l i → ∀ j ∈ h.block i l, At l j
  setNeighbours : ∀ h i l ids, Good h → At l i → (∀ j ∈ ids, At l j) →
    ids.length ≤ h.config.maxNeighbours l → Good (h.setNeighbours i l ids)
  pushBlock : ∀ h i l j, Good h → At l i → At l j →
    blockCount (h.linkArray l) (h.linkPos i l) < h.config.maxNeighbours l →
    Good (h.withLinkArray l (pushBlock (h.linkArray l) (h.linkPos i l) j))

theorem keeps_all : Keeps (fun _ => True) fun _ _ => True :=
  ⟨fun _ _ _ => trivial, fun _ _ _ _ _ _ _ => trivial, fun _ _ _ _ _ _ _ _ => trivial,
    fun _ _ _ _ _ _ _ _ => trivial⟩

section Keeps
variable {Good : HnswIndex → Prop} {At : Nat → Nat → Prop} (hk : Keeps Good At) {h : HnswIndex}
variable {l : Nat}
include hk

theorem Keeps.closedAt (hgood : Good h) (l : Nat) :
    h.ClosedAt l (At l) := by
  intro i hi j hj
  by_cases hb : h.HasBlock i l
  · rw [neighbours_of_hasBlock hb] at hj
    exact hk.block h i l hgood hi j hj
  · rw [neighbours_of_not_hasBlock hb] at hj
    cases hj

theorem Keeps.mono {i k : Nat} (hle : k ≤ l) (hi : At l i) : At k i := by
  induction l with
  | zero => rwa [Nat.le_zero.mp hle]
  | succ l ih =>
    by_cases he : k = l + 1
    · rwa [he]
    · exact ih (by omega) (hk.below l i hi)

theorem Keeps.bottom {i : Nat} (hi : At l i) : At 0 i :=
  hk.mono (Nat.zero_le l) hi

end Keeps

section Wiring
variable {K : Type} [BEq K] [LT K] [DecidableLT K] (std : StdAlgorithms (Candidate K))
variable {Good : HnswIndex → Prop} {At : Nat → Nat → Prop} (hk : Keeps Good At)
variable {f : HnswIndex → HnswIndex} (hf : Aside f) {h : HnswIndex} {l id : Nat}
include hk hf

theorem link_congr {between between' : LocalId → LocalId → K}
    (hbetween : ∀ i j, At 0 i → At 0 j → between' i j = between i j) (hgood : Good h)
    {source target : LocalId} (hsource : At l source) (htarget : At l target) :
    (f h).link std between' source target l = f (h.link std between source target l) ∧
      Good (h.link std between source target l) := by
  unfold link
  dsimp only
  rw [hf.config, hf.linkArray, hf.linkPos]
  by_cases hroom : blockCount (h.linkArray l) (h.linkPos source l) < h.config.maxNeighbours l
  · rw [if_pos hroom, if_pos hroom]
    exact ⟨(hf.withLinkArray h l _).symm, hk.pushBlock h source l target hgood hsource htarget hroom⟩
  · rw [if_neg hroom, if_neg hroom]
    have hold : ∀ i ∈ readBlock (h.linkArray l) (h.linkPos source l) ++ [target], At l i := by
      intro i hi
      rcases List.mem_append.mp hi with hi | hi
      · exact hk.block h source l hgood hsource i hi
      · rwa [List.mem_singleton.mp hi]
    have hcandidates : ((readBlock (h.linkArray l) (h.linkPos source l) ++ [target]).map fun id =>
        (⟨id, between' source id⟩ : Candidate K)) =
          (readBlock (h.linkArray l) (h.linkPos source l) ++ [target]).map fun id =>
            ⟨id, between source id⟩ :=
      List.map_congr_left fun i hi => by
        rw [hbetween source i (hk.bottom hsource) (hk.bottom (hold i hi))]
    have hmem : ∀ c ∈ (readBlock (h.linkArray l) (h.linkPos source l) ++ [target]).map fun id =>
        (⟨id, between source id⟩ : Candidate K), At l c.localId := by
      intro c hc
      obtain ⟨i, hi, rfl⟩ := List.mem_map.mp hc
      exact hold i hi
    rw [hcandidates, selectNeighbours_congr std (P := At l)
      (fun i j hi hj => hbetween i j (hk.bottom hi) (hk.bottom hj)) hmem, hf.setNeighbours]
    obtain ⟨-, hlen, hsub, -⟩ := selectNeighbours_spec std between
      ((readBlock (h.linkArray l) (h.linkPos source l) ++ [target]).map fun id =>
        (⟨id, between source id⟩ : Candidate K)) (h.config.maxNeighbours l)
    refine ⟨rfl, hk.setNeighbours h source l _ hgood hsource (fun j hj => ?_) hlen⟩
    obtain ⟨c, hc, rfl⟩ := List.mem_map.mp (hsub j hj)
    exact hmem c hc

theorem linkAll_congr {between between' : LocalId → LocalId → K}
    (hbetween : ∀ i j, At 0 i → At 0 j → between' i j = between i j) (hgood : Good h)
    (hid : At l id) {chosen : List LocalId} (hchosen : ∀ j ∈ chosen, At l j) :
    chosen.foldl (fun h j => h.link std between' j id l) (f h) =
        f (chosen.foldl (fun h j => h.link std between j id l) h) ∧
      Good (chosen.foldl (fun h j => h.link std between j id l) h) := by
  induction chosen generalizing h with
  | nil => exact ⟨rfl, hgood⟩
  | cons j chosen ih =>
    obtain ⟨heq, hnext⟩ := link_congr std hk hf hbetween hgood (hchosen j List.mem_cons_self) hid
    rw [List.foldl_cons, List.foldl_cons, heq]
    exact ih hnext fun i hi => hchosen i (List.mem_cons_of_mem j hi)

variable {view view' : SlotView K}
  (hkey : ∀ i j, At 0 i → At 0 j → view'.key i j = view.key i j)
include hkey

theorem wireLayer_congr (hgood : Good h) (hid : At l id) {entries : List LocalId}
    (he : ∀ e ∈ entries, At l e) :
    wireLayer std view' id (f h) l entries =
        (f (wireLayer std view id h l entries).1, (wireLayer std view id h l entries).2) ∧
      Good (wireLayer std view id h l entries).1 ∧
      ∀ e ∈ (wireLayer std view id h l entries).2, At l e := by
  have hclosed := hk.closedAt hgood l
  have hown : ∀ i, At l i → view'.key id i = view.key id i := fun i hi =>
    hkey id i (hk.bottom hid) (hk.bottom hi)
  let found := searchLayer std h (view.key id) entries h.config.efConstruction l
  have hfound : searchLayer std (f h) (view'.key id) entries h.config.efConstruction l = found :=
    searchLayer_congr hf std hclosed hown he _
  have hmem : ∀ c ∈ found, At l c.localId := fun c hc =>
    (searchLayer_mem h.config.efConstruction hclosed he hc).1
  have hselect : selectNeighbours std view'.key found (h.config.maxNeighbours l) =
      selectNeighbours std view.key found (h.config.maxNeighbours l) :=
    selectNeighbours_congr std (fun i j hi hj => hkey i j (hk.bottom hi) (hk.bottom hj)) hmem _
  obtain ⟨-, hlen, hsub, hperm⟩ :=
    selectNeighbours_spec std view.key found (h.config.maxNeighbours l)
  have hchosen : ∀ j ∈ (selectNeighbours std view.key found (h.config.maxNeighbours l)).1,
      At l j := by
    intro j hj
    obtain ⟨c, hc, rfl⟩ := List.mem_map.mp (hsub j hj)
    exact hmem c hc
  obtain ⟨hlinked, hgood'⟩ := linkAll_congr std hk hf hkey
    (hk.setNeighbours h id l _ hgood hid hchosen hlen) hid hchosen
  refine ⟨?_, hgood', fun e he => ?_⟩
  · unfold wireLayer
    dsimp only
    rw [hf.config, hfound, hselect, hf.setNeighbours, hlinked]
  · obtain ⟨c, hc, rfl⟩ := List.mem_map.mp he
    exact hmem c (hperm.mem_iff.mp hc)

theorem wireLayers_congr (n : Nat) (hgood : Good h) (hid : ∀ k < n, At k id)
    {entries : List LocalId} (he : ∀ k < n, ∀ e ∈ entries, At k e) :
    wireLayers std view' id n (f h) entries = f (wireLayers std view id n h entries) ∧
      Good (wireLayers std view id n h entries) := by
  induction n generalizing h entries with
  | zero => exact ⟨rfl, hgood⟩
  | succ n ih =>
    obtain ⟨heq, hnext, hentries⟩ := wireLayer_congr std hk hf hkey hgood (hid n (by omega))
      (he n (by omega))
    rw [wireLayers, wireLayers, heq]
    refine ih hnext (fun k hk' => hid k (by omega)) fun k hk' e hmem => ?_
    exact hk.mono (Nat.le_of_lt hk') (hentries e hmem)

section Add
variable {g : HnswIndex → HnswIndex} (hg : Aside g) {level : Nat} {narrow : Nat → Nat}
include hg

omit hg in
/-- The wiring of a new node, from the entry point that its descent finds. -/
theorem wired_congr (hgood : Good h) (hid : ∀ k < min level h.maxLevel + 1, At k id)
    (hentry : At h.maxLevel h.entryPoint) :
    wireLayers std view' id (min level h.maxLevel + 1) (f h)
        [descendLayers (f h) (view'.key id) level h.maxLevel h.entryPoint] =
      f (wireLayers std view id (min level h.maxLevel + 1) h
        [descendLayers h (view.key id) level h.maxLevel h.entryPoint]) ∧
    Good (wireLayers std view id (min level h.maxLevel + 1) h
      [descendLayers h (view.key id) level h.maxLevel h.entryPoint]) := by
  have hown : ∀ k i, At k i → view'.key id i = view.key id i := fun k i hi =>
    hkey id i (hid 0 (Nat.zero_lt_succ _)) (hk.bottom hi)
  have hat : At (min level h.maxLevel) (descendLayers h (view.key id) level h.maxLevel
      h.entryPoint) :=
    descendLayers_mem (view.key id) (hk.closedAt hgood) hk.below level h.maxLevel hentry
  rw [descendLayers_congr hf (hk.closedAt hgood) hk.below hown level h.maxLevel hentry]
  refine wireLayers_congr std hk hf hkey (min level h.maxLevel + 1) hgood hid fun k hlt e he => ?_
  rw [List.mem_singleton.mp he]
  exact hk.mono (Nat.le_of_lt_succ hlt) hat

omit hg in
theorem connect_congr (hgood : Good h) (hid : ∀ k < min level h.maxLevel + 1, At k id)
    (hentry : At h.maxLevel h.entryPoint) :
    connect std view' (f h) id level = f (connect std view h id level) := by
  unfold connect
  dsimp only
  rw [hf.maxLevel, hf.entryPoint, (wired_congr std hk hf hkey hgood hid hentry).1]
  split
  · exact (hf.withEntry _ _ _).symm
  · rfl

/-- Two stores that give the nodes the same rank keys give the index the same node. -/
theorem addWithLevel_congr (hgrow : (g h).grow narrow level = f (h.grow narrow level))
    (hgood : h.entryPoint ≠ kInvalidLocalId → Good (h.grow narrow level) ∧
      (∀ k < min level h.maxLevel + 1, At k id) ∧ At h.maxLevel h.entryPoint)
    (hsize : view.size ≤ id ↔ view'.size ≤ id) :
    addWithLevel std view' narrow (g h) id level =
      (addWithLevel std view narrow h id level).map f := by
  unfold addWithLevel
  rw [hg.nodeCount, hg.entryPoint, hgrow]
  split
  · rfl
  · rw [if_congr hsize.symm rfl rfl]
    split
    · rfl
    · split
      · exact congrArg Except.ok (hf.withEntry _ _ _).symm
      next hentry =>
        obtain ⟨hgood, hid, hat⟩ := hgood hentry
        rw [connect_congr std hk hf hkey hgood hid hat]
        rfl

end Add

end Wiring

end HnswIndex

end VectorDb.Index
