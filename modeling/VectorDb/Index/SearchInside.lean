import VectorDb.Index.HnswLoad
import VectorDb.Index.HnswReach

/-!
The search of src/index/hnsw/hnsw_index.cpp with every read checked: `none` where one leaves
its array, or where a loop takes more turns than there are nodes.
-/
set_option autoImplicit false

namespace VectorDb.Index

open VectorDb.Lib

namespace HnswIndex

section Inside

/-- The block at `pos`, if its words are in the array. -/
def blockInside (a : List LocalId) (pos : Nat) : Option (List LocalId) := do
  let count ← a[pos]?
  (List.range count).mapM fun i => a[pos + 1 + i]?

def neighboursInside (h : HnswIndex) (node layer : Nat) : Option (List LocalId) :=
  if h.nodeCount ≤ node then some []
  else do
    let level ← h.nodeLevel[node]?
    if level < layer then some []
    else if layer = 0 then blockInside h.layer0Links (node * h.layer0Stride)
    else do
      let base ← h.upperOffsets[node]?
      blockInside h.upperLinks (base + (layer - 1) * h.upperStride)

variable {K : Type} [BEq K] [LT K] [DecidableLT K] (std : StdAlgorithms (Candidate K))
variable (h : HnswIndex) (key : LocalId → Option K)

def descendPassInside (candidates : List LocalId) (current : LocalId) (distance : K) :
    Option (LocalId × K × Bool) :=
  candidates.foldlM (fun s neighbour => do
    let d ← key neighbour
    return if d < s.2.1 then (neighbour, d, true) else s) (current, distance, false)

def descendLoopInside (layer : Nat) : Nat → LocalId → K → Option LocalId
  | 0, _, _ => none
  | fuel + 1, current, distance => do
    let candidates ← neighboursInside h current layer
    match ← descendPassInside key candidates current distance with
    | (next, d, true) => descendLoopInside layer fuel next d
    | (next, _, false) => return next

def greedyDescendInside (entry : LocalId) (layer : Nat) : Option LocalId := do
  descendLoopInside h key layer (h.nodeCount + 1) entry (← key entry)

def descendLayersInside : Nat → LocalId → Option LocalId
  | 0, entry => some entry
  | top + 1, entry => do descendLayersInside top (← greedyDescendInside h key entry (top + 1))

/-- The array of visited nodes has one entry for each node. -/
def offerEntryInside (s : LayerSearch K) (entry : LocalId) : Option (LayerSearch K) :=
  if h.nodeCount ≤ entry then none
  else if entry ∈ s.visited then some s
  else do
    let d ← key entry
    return {
      visited := entry :: s.visited
      frontier := pushFrontier std s.frontier ⟨entry, d⟩
      best := pushBest std s.best ⟨entry, d⟩ }

def offerNeighbourInside (ef : Nat) (s : LayerSearch K) (neighbour : LocalId) :
    Option (LayerSearch K) :=
  if h.nodeCount ≤ neighbour then none
  else if neighbour ∈ s.visited then some s
  else do
    let d ← key neighbour
    return if admits ef s.best d then
        { visited := neighbour :: s.visited
          frontier := pushFrontier std s.frontier ⟨neighbour, d⟩
          best := trimBest std ef (pushBest std s.best ⟨neighbour, d⟩) }
      else { s with visited := neighbour :: s.visited }

def searchLoopInside (ef layer : Nat) : Nat → LayerSearch K → Option (LayerSearch K)
  | 0, _ => none
  | fuel + 1, s =>
    match (std.popHeap candidateWorse s.frontier).getLast? with
    | none => some s
    | some current =>
      let s := { s with frontier := (std.popHeap candidateWorse s.frontier).dropLast }
      if stops ef s.best current then some s
      else do
        let neighbours ← neighboursInside h current.localId layer
        searchLoopInside ef layer fuel
          (← neighbours.foldlM (offerNeighbourInside std h key ef) s)

def searchLayerInside (entryPoints : List LocalId) (ef layer : Nat) :
    Option (List (Candidate K)) := do
  let s ← entryPoints.foldlM (offerEntryInside std h key) ⟨[], [], []⟩
  let s ← searchLoopInside std h key ef layer (h.nodeCount + 1) s
  return std.sort candidateBetter s.best

/-- The loop that drops dead candidates. -/
def takeLiveInside (live : LocalId → Option Bool) (k : Nat) :
    List (Candidate K) → List (Candidate K) → Option (List (Candidate K))
  | [], results => some results
  | c :: found, results =>
    if k ≤ results.length then some results
    else do
      if ← live c.localId then takeLiveInside live k found (results ++ [c])
      else takeLiveInside live k found results

def searchFromInside (live : LocalId → Option Bool) (k ef : Nat) :
    Option (List (Candidate K)) :=
  if h.entryPoint = kInvalidLocalId then some []
  else do
    let entry ← descendLayersInside h key h.maxLevel h.entryPoint
    let found ← searchLayerInside std h key [entry] ef 0
    takeLiveInside live k found []

/-- `search`, with checked reads. -/
def searchInside (live : LocalId → Option Bool) (dimension size : Nat) (params : SearchParams) :
    Option (Except Error (List (Candidate K))) :=
  if params.k = 0 then some (.error (.invalidArgument "search requires k >= 1"))
  else if size ≠ dimension then some (.error (.dimensionMismatch dimension size))
  else do return .ok (← searchFromInside std h key live params.k (h.searchWidth params))

end Inside

/-- What the walks along the lists rely on. -/
structure Navigable (h : HnswIndex) : Prop where
  nodeCount_le : h.nodeCount ≤ kMaxVectorCount
  offsets_length : h.upperOffsets.length = h.nodeCount
  inside : ∀ i l, h.HasBlock i l →
    h.linkPos i l + blockCount (h.linkArray l) (h.linkPos i l) < (h.linkArray l).length
  reaches : ∀ i l, h.HasBlock i l → ∀ j ∈ h.block i l, h.HasBlock j l
  entry : 0 < h.nodeCount → h.HasBlock h.entryPoint h.maxLevel
  entry_empty : h.nodeCount = 0 → h.entryPoint = kInvalidLocalId

/-- `<` of floating-point numbers, a NaN among them or not. -/
structure StrictKeys (K : Type) [LT K] : Prop where
  irrefl : ∀ x : K, ¬ x < x
  trans : ∀ x y z : K, x < y → y < z → x < z

section Lists
variable {h : HnswIndex}

theorem mapM_eq_some {α β : Type} {f : α → Option β} {g : α → β} {l : List α}
    (hf : ∀ a ∈ l, f a = some (g a)) : l.mapM f = some (l.map g) := by
  induction l with
  | nil => rfl
  | cons a l ih =>
    rw [List.mapM_cons, hf a List.mem_cons_self, ih fun b hb => hf b (List.mem_cons_of_mem a hb)]
    rfl

theorem foldlM_eq_some {α β : Type} {f : β → α → Option β} {g : β → α → β} {I : β → Prop}
    {l : List α} (hf : ∀ b, I b → ∀ a ∈ l, f b a = some (g b a) ∧ I (g b a)) {b : β} (hb : I b) :
    l.foldlM f b = some (l.foldl g b) ∧ I (l.foldl g b) := by
  induction l generalizing b with
  | nil => exact ⟨rfl, hb⟩
  | cons a l ih =>
    obtain ⟨hstep, hnext⟩ := hf b hb a List.mem_cons_self
    rw [List.foldlM_cons, hstep]
    exact ih (fun b hb c hc => hf b hb c (List.mem_cons_of_mem a hc)) hnext

theorem blockInside_eq {a : List LocalId} {pos : Nat} (h : pos + blockCount a pos < a.length) :
    blockInside a pos = some (readBlock a pos) := by
  have hpos : pos < a.length := by omega
  have hcount : a[pos]? = some (blockCount a pos) := by
    simp [blockCount, hpos]
  have hread : (List.range (blockCount a pos)).map (fun i => a.getD (pos + 1 + i) 0) =
      readBlock a pos := by
    apply List.ext_getElem?
    intro i
    rw [getElem?_readBlock, List.getElem?_map]
    by_cases hi : i < blockCount a pos
    · rw [List.getElem?_range hi, if_pos hi, List.getElem?_eq_getElem (by omega),
        Option.map_some, List.getD_eq_getElem _ _ (by omega)]
    · rw [List.getElem?_eq_none (by simpa using Nat.le_of_not_lt hi), if_neg hi, Option.map_none]
  rw [blockInside, hcount, Option.bind_eq_bind, Option.bind_some, ← hread]
  refine mapM_eq_some fun i hi => ?_
  have hi := List.mem_range.mp hi
  rw [List.getElem?_eq_getElem (by omega), List.getD_eq_getElem _ _ (by omega)]

theorem neighboursInside_eq (hn : h.Navigable) (i l : Nat) :
    neighboursInside h i l = some (h.neighbours i l) := by
  by_cases hi : h.nodeCount ≤ i
  · rw [neighboursInside, if_pos hi, neighbours, if_pos hi]
  · have hlt : i < h.nodeCount := Nat.lt_of_not_le hi
    have hlevel : h.nodeLevel[i]? = some (h.level i) := by
      rw [HnswIndex.level, List.getD_eq_getElem?_getD, List.getElem?_eq_getElem hlt]
      rfl
    rw [neighboursInside, if_neg hi, hlevel, neighbours, if_neg hi, Option.bind_eq_bind,
      Option.bind_some]
    by_cases hl : h.level i < l
    · rw [if_pos hl, if_pos hl]
    · have hb : h.HasBlock i l := ⟨hlt, Nat.le_of_not_lt hl⟩
      have hinside := hn.inside i l hb
      rw [if_neg hl, if_neg hl]
      by_cases hzero : l = 0
      · subst hzero
        exact blockInside_eq hinside
      · have hoffset : h.upperOffsets[i]? = some (h.upperOffsets.getD i 0) := by
          have hlt' : i < h.upperOffsets.length := hn.offsets_length ▸ hlt
          rw [List.getD_eq_getElem?_getD, List.getElem?_eq_getElem hlt']
          rfl
        rw [if_neg hzero, hoffset, Option.bind_some]
        simp only [linkPos, linkArray, hzero, if_false] at hinside
        simpa only [block, linkPos, linkArray, hzero, if_false] using blockInside_eq hinside

theorem Navigable.closedAt (hn : h.Navigable) (l : Nat) : h.ClosedAt l (h.HasBlock · l) := by
  intro i hb j hj
  rw [neighbours_of_hasBlock hb] at hj
  exact hn.reaches i l hb j hj

end Lists

section Descend
variable {K : Type} [LT K] [DecidableLT K] {h : HnswIndex} {key : LocalId → Option K}
variable {k : LocalId → K} {l : Nat}

/-- What a pass over a list leaves: the key of where it stands, and whether it is nearer. -/
theorem descendPass_spec (hk : StrictKeys K) (k : LocalId → K) (candidates : List LocalId)
    (current : LocalId) :
    let r := descendPass k candidates current (k current)
    r.2.1 = k r.1 ∧ (r.2.2 = true → k r.1 < k current) := by
  have hfold : ∀ (l : List LocalId) (s : LocalId × K × Bool), s.2.1 = k s.1 →
      (s.2.2 = true → k s.1 < k current) → (s.2.2 = false → s.1 = current) →
      let r := l.foldl (fun s j => if k j < s.2.1 then (j, k j, true) else s) s
      r.2.1 = k r.1 ∧ (r.2.2 = true → k r.1 < k current) := by
    intro l
    induction l with
    | nil => exact fun s hkey hless _ => ⟨hkey, hless⟩
    | cons j l ih =>
      intro s hkey hless hsame
      rw [List.foldl_cons]
      by_cases hj : k j < s.2.1
      · rw [if_pos hj]
        refine ih _ rfl (fun _ => ?_) nofun
        rw [hkey] at hj
        cases hs : s.2.2 with
        | true => exact hk.trans _ _ _ hj (hless hs)
        | false => rwa [hsame hs] at hj
      · rw [if_neg hj]
        exact ih s hkey hless hsame
  exact hfold candidates (current, k current, false) rfl nofun fun _ => rfl

theorem descendPassInside_eq {candidates : List LocalId}
    (hkey : ∀ j ∈ candidates, key j = some (k j)) (current : LocalId) (distance : K) :
    descendPassInside key candidates current distance =
      some (descendPass k candidates current distance) := by
  refine (foldlM_eq_some (I := fun _ => True) (fun s _ j hj => ⟨?_, trivial⟩) trivial).1
  rw [hkey j hj]
  rfl

/-- The nodes that are nearer than this one. -/
def nearer (h : HnswIndex) (k : LocalId → K) (i : LocalId) : Finset Nat :=
  (Finset.range h.nodeCount).filter fun j => k j < k i

theorem card_nearer_lt (hk : StrictKeys K) {i j : Nat} (hj : j < h.nodeCount)
    (hlt : k j < k i) : (nearer h k j).card < (nearer h k i).card := by
  refine Finset.card_lt_card ((Finset.ssubset_iff_of_subset ?_).mpr ⟨j, ?_, ?_⟩)
  · intro m hm
    rw [nearer, Finset.mem_filter] at hm ⊢
    exact ⟨hm.1, hk.trans _ _ _ hm.2 hlt⟩
  · rw [nearer, Finset.mem_filter, Finset.mem_range]
    exact ⟨hj, hlt⟩
  · rw [nearer, Finset.mem_filter]
    exact fun hm => hk.irrefl _ hm.2

theorem card_nearer_le (h : HnswIndex) (k : LocalId → K) (i : LocalId) :
    (nearer h k i).card ≤ h.nodeCount := by
  calc (nearer h k i).card ≤ (Finset.range h.nodeCount).card :=
        Finset.card_le_card (Finset.filter_subset _ _)
    _ = h.nodeCount := Finset.card_range _

/-- Every turn but the last moves to a nearer node. -/
theorem descendLoopInside_eq (hk : StrictKeys K) (hn : h.Navigable)
    (hkey : ∀ i < h.nodeCount, key i = some (k i)) (fuel : Nat) {current : LocalId}
    (hb : h.HasBlock current l) (hfuel : (nearer h k current).card < fuel) :
    descendLoopInside h key l fuel current (k current) =
      some (descendLoop h k l fuel current (k current)) := by
  induction fuel generalizing current with
  | zero => omega
  | succ fuel ih =>
    have hlist : ∀ j ∈ h.neighbours current l, h.HasBlock j l := hn.closedAt l current hb
    have hpass := descendPassInside_eq (fun j hj => hkey j (hlist j hj).1) current (k current)
    have hnext : h.HasBlock (descendPass k (h.neighbours current l) current (k current)).1 l :=
      descendPass_mem (P := (h.HasBlock · l)) hlist hb
    obtain ⟨hown, hless⟩ := descendPass_spec hk k (h.neighbours current l) current
    rw [descendLoopInside, neighboursInside_eq hn, descendLoop, Option.bind_eq_bind,
      Option.bind_some, hpass, Option.bind_eq_bind, Option.bind_some]
    rcases hr : descendPass k (h.neighbours current l) current (k current) with ⟨next, d, moved⟩
    rw [hr] at hnext hown hless
    dsimp only at hnext hown hless
    cases moved with
    | false => rfl
    | true =>
      subst hown
      exact ih hnext (by have := card_nearer_lt hk hnext.1 (hless rfl); omega)

theorem greedyDescendInside_eq (hk : StrictKeys K) (hn : h.Navigable)
    (hkey : ∀ i < h.nodeCount, key i = some (k i)) {entry : LocalId} (hb : h.HasBlock entry l) :
    greedyDescendInside h key entry l = some (greedyDescend h k entry l) := by
  rw [greedyDescendInside, hkey entry hb.1]
  exact descendLoopInside_eq hk hn hkey _ hb (Nat.lt_succ_of_le (card_nearer_le h k entry))

theorem descendLayersInside_eq (hk : StrictKeys K) (hn : h.Navigable)
    (hkey : ∀ i < h.nodeCount, key i = some (k i)) (top : Nat) {entry : LocalId}
    (hb : h.HasBlock entry top) :
    descendLayersInside h key top entry = some (descendLayers h k 0 top entry) := by
  induction top generalizing entry with
  | zero => rfl
  | succ top ih =>
    have hnext : h.HasBlock (greedyDescend h k entry (top + 1)) (top + 1) :=
      greedyDescend_mem (P := (h.HasBlock · (top + 1))) (hn.closedAt (top + 1)) hb
    rw [descendLayersInside, greedyDescendInside_eq hk hn hkey hb, descendLayers,
      if_pos (Nat.succ_pos top)]
    exact ih (hnext.mono (Nat.le_succ top))

end Descend

section Search
variable {K : Type} [BEq K] [LT K] [DecidableLT K] (std : StdAlgorithms (Candidate K))
variable {h : HnswIndex} {key : LocalId → Option K} {k : LocalId → K} {l ef : Nat}
variable (hn : h.Navigable) (hkey : ∀ i < h.nodeCount, key i = some (k i))
include hkey

theorem offerEntryInside_eq (s : LayerSearch K) {i : LocalId} (hi : i < h.nodeCount) :
    offerEntryInside std h key s i = some (offerEntry std k s i) := by
  rw [offerEntryInside, if_neg (Nat.not_le.mpr hi), offerEntry, hkey i hi]
  split <;> rfl

theorem offerNeighbourInside_eq (ef : Nat) (s : LayerSearch K) {i : LocalId}
    (hi : i < h.nodeCount) :
    offerNeighbourInside std h key ef s i = some (offerNeighbour std k ef s i) := by
  rw [offerNeighbourInside, if_neg (Nat.not_le.mpr hi), offerNeighbour, hkey i hi]
  split <;> rfl

include hn

/-- The loop takes no more turns than there are nodes. -/
theorem searchLoopInside_eq {s : LayerSearch K}
    (hclosed : h.ClosedAt l (· < h.nodeCount)) (hs : SearchInv k (· < h.nodeCount) s)
    (hp : Progress h l ef [] s) (fuel : Nat)
    (hfuel : s.frontier.length + (h.nodeCount - s.visited.length) < fuel) :
    searchLoopInside std h key ef l fuel s = some (searchLoop std h k ef l fuel s) := by
  induction fuel generalizing s with
  | zero => omega
  | succ fuel ih =>
    rw [searchLoopInside, searchLoop]
    cases hcur : (std.popHeap candidateWorse s.frontier).getLast? with
    | none => rfl
    | some current =>
      have hlt : current.localId < h.nodeCount :=
        hs.visited_mem _ (hs.frontier_visited _ (mem_of_getLast?_popHeap hcur))
      obtain ⟨hs', hp', hless⟩ := expand_progress std hclosed hs hp hcur
      have hoffers := (foldlM_eq_some (I := fun _ => True)
        (f := offerNeighbourInside std h key ef) (g := offerNeighbour std k ef)
        (fun s _ j hj => ⟨offerNeighbourInside_eq std hkey ef s (hclosed _ hlt j hj), trivial⟩)
        (b := { s with frontier := (std.popHeap candidateWorse s.frontier).dropLast })
        trivial).1
      dsimp only
      by_cases hstop : stops ef s.best current = true
      · rw [if_pos hstop, if_pos hstop]
      · rw [if_neg hstop, if_neg hstop, neighboursInside_eq hn, Option.bind_eq_bind, Option.bind_some, hoffers,
          Option.bind_eq_bind, Option.bind_some]
        exact ih hs' hp' (by omega)

theorem searchLayerInside_eq (ef : Nat) {entries : List LocalId}
    (hclosed : h.ClosedAt l (· < h.nodeCount)) (he : ∀ i ∈ entries, i < h.nodeCount) :
    searchLayerInside std h key entries ef l = some (searchLayer std h k entries ef l) := by
  have hentries := (foldlM_eq_some (I := fun _ => True) (f := offerEntryInside std h key)
    (g := offerEntry std k) (l := entries)
    (fun s _ i hi => ⟨offerEntryInside_eq std hkey s (he i hi), trivial⟩)
    (b := ⟨[], [], []⟩) trivial).1
  obtain ⟨hentered, _, _⟩ := entered_entries std k entries
  have hs : SearchInv k (· < h.nodeCount) (entries.foldl (offerEntry std k) ⟨[], [], []⟩) :=
    searchInv_entries std k he
  have hfrontier := hentered.frontier.length_eq
  rw [List.length_map] at hfrontier
  have hle := length_visited_le hs hentered.nodup
  rw [searchLayerInside, hentries, Option.bind_eq_bind, Option.bind_some,
    searchLoopInside_eq std hn hkey hclosed hs hentered.progress (h.nodeCount + 1) (by omega)]
  rfl

end Search

section Result
variable {K : Type} [BEq K] [LT K] [DecidableLT K] (std : StdAlgorithms (Candidate K))
variable {h : HnswIndex} {key : LocalId → Option K} {q : LocalId → K}
variable {live : LocalId → Option Bool} {view : SlotView K}

omit [BEq K] [LT K] [DecidableLT K] in
theorem takeLiveInside_eq {alive : LocalId → Bool} {found : List (Candidate K)}
    (hlive : ∀ c ∈ found, live c.localId = some (alive c.localId)) (k : Nat)
    (results : List (Candidate K)) :
    takeLiveInside live k found results =
      some (results ++ (found.filter fun c => alive c.localId).take (k - results.length)) := by
  induction found generalizing results with
  | nil => simp [takeLiveInside]
  | cons c found ih =>
    have hrest := ih fun d hd => hlive d (List.mem_cons_of_mem c hd)
    rw [takeLiveInside]
    by_cases hfull : k ≤ results.length
    · rw [if_pos hfull, Nat.sub_eq_zero_of_le hfull, List.take_zero, List.append_nil]
    · rw [if_neg hfull, hlive c List.mem_cons_self, Option.bind_eq_bind, Option.bind_some]
      cases halive : alive c.localId with
      | false =>
        rw [if_neg Bool.false_ne_true, hrest, List.filter_cons_of_neg (by simp [halive])]
      | true =>
        obtain ⟨n, hn⟩ : ∃ n, k - results.length = n + 1 := ⟨k - results.length - 1, by omega⟩
        rw [if_pos rfl, hrest, List.filter_cons_of_pos (by simpa using halive), hn,
          List.take_succ_cons, List.length_append, List.length_singleton,
          show k - (results.length + 1) = n by omega, List.append_assoc]
        rfl

theorem searchFromInside_eq (hk : StrictKeys K) (hn : h.Navigable)
    (hkey : ∀ i < h.nodeCount, key i = some (q i)) {alive : LocalId → Bool}
    (hlive : ∀ i < h.nodeCount, live i = some (alive i)) (k ef : Nat) :
    searchFromInside std h key live k ef = some (searchFrom std h q alive k ef) := by
  unfold searchFromInside searchFrom
  by_cases hentry : h.entryPoint = kInvalidLocalId
  · rw [if_pos hentry, if_pos hentry]
  · have hpos : 0 < h.nodeCount := by
      by_contra hzero
      exact hentry (hn.entry_empty (by omega))
    have hb := hn.entry hpos
    have hclosed : h.ClosedAt 0 (· < h.nodeCount) := fun i hi j hj =>
      (hn.closedAt 0 i ⟨hi, Nat.zero_le _⟩ j hj).1
    have hbottom : descendLayers h q 0 h.maxLevel h.entryPoint < h.nodeCount :=
      (descendLayers_mem (h := h) q (Q := fun l i => h.HasBlock i l) hn.closedAt
        (fun l i hi => hi.mono (Nat.le_succ l)) 0 h.maxLevel hb).1
    have he : ∀ i ∈ [descendLayers h q 0 h.maxLevel h.entryPoint], i < h.nodeCount := fun i hi =>
      List.mem_singleton.mp hi ▸ hbottom
    have hfound : ∀ c ∈ searchLayer std h q [descendLayers h q 0 h.maxLevel h.entryPoint] ef 0,
        live c.localId = some (alive c.localId) := fun c hc =>
      hlive _ (searchLayer_mem _ hclosed he hc).1
    rw [if_neg hentry, if_neg hentry, descendLayersInside_eq hk hn hkey h.maxLevel hb,
      Option.bind_eq_bind, Option.bind_some, searchLayerInside_eq std hn hkey _ hclosed he,
      Option.bind_eq_bind, Option.bind_some, takeLiveInside_eq hfound]
    simp

/-- Along lists that are in order no read leaves its array, and every loop ends. -/
theorem searchInside_eq (hk : StrictKeys K) (hn : h.Navigable)
    (hkey : ∀ i < h.nodeCount, key i = some (q i))
    (hlive : ∀ i < h.nodeCount, live i = some (view.live i)) (size : Nat) (params : SearchParams) :
    searchInside std h key live view.dimension size params =
      some (search std h view ⟨size, q⟩ params) := by
  unfold searchInside search
  split
  · rfl
  split
  · rfl
  rw [searchFromInside_eq std hk hn hkey hlive]
  rfl

end Result

end HnswIndex

/-- The lists of a graph that was read lead nowhere outside it. -/
theorem Loaded.navigable {bytes : Bytes} {slots : Nat} {metric : Metric}
    {dimension : Dimension} {f : HnswFileHeader} {h : HnswIndex}
    (hl : Loaded bytes slots metric dimension f h) : h.Navigable := by
  have hf := parseHnswFileHeader_eq_ok hl.header
  have hentry := hf.entry
  have hcount := hl.nodeCount
  refine ⟨by rw [hcount]; exact hf.nodeCount_le, ?_, fun i l hb => ?_, fun i l hb j hj =>
    ((hl.blocks hb).2.2 j hj).1, fun hpos => ?_, fun hzero => ?_⟩
  · rw [hl.offsets, length_unpackWords, hcount]
  · obtain ⟨hin, hle, -⟩ := hl.blocks hb
    simp only [HnswIndex.stride] at hin
    omega
  · have hne : f.nodeCount ≠ 0 := by omega
    rw [if_neg hne] at hentry
    have htop : h.level f.entryPoint = f.maxLevel := hl.entry.resolve_left hne
    rw [hl.entryPoint, hl.maxLevel]
    exact ⟨hcount ▸ hentry, htop.ge⟩
  · rw [if_pos (by omega)] at hentry
    rw [hl.entryPoint, hentry]

end VectorDb.Index
