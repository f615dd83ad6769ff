import VectorDb.Index.HnswLayout

/-!
What a layer search and a neighbour selection give whatever the distances are:
where their nodes come from, that none comes twice, and when the loops end.
-/
set_option autoImplicit false

namespace VectorDb.Index

open VectorDb.Lib

namespace HnswIndex

variable {K : Type} {std : StdAlgorithms (Candidate K)} {h : HnswIndex} {key : LocalId → K}

/-- A set of nodes the neighbour lists of a layer do not lead out of. -/
def ClosedAt (h : HnswIndex) (layer : Nat) (P : Nat → Prop) : Prop :=
  ∀ i, P i → ∀ j ∈ h.neighbours i layer, P j

section Pick
variable {limit : Nat}

theorem pickRejected_cases (limit : Nat) (out : List LocalId) (c : Candidate K) :
    (pickRejected limit out c = out ∧ (limit ≤ out.length ∨ c.localId ∈ out)) ∨
      (pickRejected limit out c = out ++ [c.localId] ∧ out.length < limit ∧ c.localId ∉ out) := by
  unfold pickRejected
  split
  next hfull => exact .inl ⟨rfl, .inl hfull⟩
  next hroom =>
    split
    next hin => exact .inl ⟨rfl, .inr hin⟩
    next hout => exact .inr ⟨rfl, by omega, hout⟩

theorem foldl_pickRejected {l : List (Candidate K)} {out : List LocalId}
    (hlen : out.length ≤ limit) :
    (out.Nodup → (l.foldl (pickRejected limit) out).Nodup) ∧
      (l.foldl (pickRejected limit) out).length ≤ limit ∧
      ∀ i ∈ l.foldl (pickRejected limit) out, i ∈ out ∨ i ∈ l.map Candidate.localId := by
  induction l generalizing out with
  | nil => exact ⟨id, hlen, fun i hi => .inl hi⟩
  | cons c l ih =>
    rw [List.foldl_cons]
    rcases pickRejected_cases limit out c with ⟨h, -⟩ | ⟨h, hlt, hnew⟩
    · obtain ⟨hn, hl, hm⟩ := ih hlen
      rw [h]
      refine ⟨hn, hl, fun i hi => ?_⟩
      rcases hm i hi with hi | hi
      · exact .inl hi
      · exact .inr (by simp [hi])
    · have hnd : out.Nodup → (out ++ [c.localId]).Nodup := by
        intro hout
        rw [List.nodup_append]
        exact ⟨hout, by simp, fun a ha b hb hab => hnew (by simp at hb; rwa [← hb, ← hab])⟩
      obtain ⟨hn, hl, hm⟩ := @ih (out ++ [c.localId]) (by simp; omega)
      rw [h]
      refine ⟨fun hout => hn (hnd hout), hl, fun i hi => ?_⟩
      rcases hm i hi with hi | hi
      · rcases List.mem_append.mp hi with hi | hi
        · exact .inl hi
        · exact .inr (by simp at hi; simp [hi])
      · exact .inr (by simp [hi])

variable [LT K] [DecidableLT K]

theorem pickDiverse_cases (between : LocalId → LocalId → K) (limit : Nat) (out : List LocalId) (c : Candidate K) :
    pickDiverse between limit out c = out ∨
      (pickDiverse between limit out c = out ++ [c.localId] ∧ out.length < limit) := by
  unfold pickDiverse
  split
  · exact .inl rfl
  · split
    · exact .inl rfl
    · exact .inr ⟨rfl, by omega⟩

/-- The diverse candidates, in the order they came, and no more than `limit`. -/
theorem foldl_pickDiverse (between : LocalId → LocalId → K) (limit : Nat) (l : List (Candidate K)) (out : List LocalId) :
    ∃ picked : List LocalId, picked.Sublist (l.map Candidate.localId) ∧
      l.foldl (pickDiverse between limit) out = out ++ picked ∧
      (out.length ≤ limit → (out ++ picked).length ≤ limit) := by
  induction l generalizing out with
  | nil => exact ⟨[], .slnil, by simp, by simp⟩
  | cons c l ih =>
    rw [List.foldl_cons]
    rcases pickDiverse_cases between limit out c with h | ⟨h, hlt⟩
    · obtain ⟨picked, hsub, heq, hlen⟩ := ih out
      exact ⟨picked, hsub.cons _, by rw [h, heq], hlen⟩
    · obtain ⟨picked, hsub, heq, hlen⟩ := ih (out ++ [c.localId])
      refine ⟨c.localId :: picked, hsub.cons_cons _, by rw [h, heq]; simp, fun _ => ?_⟩
      simpa using hlen (by simp; omega)

end Pick

section Descend
variable [LT K] [DecidableLT K] {P : Nat → Prop} {layer : Nat}

theorem descendPass_mem {candidates : List LocalId} {current : LocalId} {distance : K}
    (hc : ∀ j ∈ candidates, P j) (hcur : P current) :
    P (descendPass key candidates current distance).1 := by
  suffices ∀ s : LocalId × K × Bool, P s.1 → P (candidates.foldl
      (fun s j => if key j < s.2.1 then (j, key j, true) else s) s).1 from this _ hcur
  induction candidates with
  | nil => exact fun _ hs => hs
  | cons j candidates ih =>
    intro s hs
    rw [List.foldl_cons]
    apply ih (fun i hi => hc i (by simp [hi]))
    split
    · exact hc j (by simp)
    · exact hs

theorem descendLoop_mem (hclosed : h.ClosedAt layer P) (fuel : Nat) {current : LocalId}
    {distance : K} (hcur : P current) : P (descendLoop h key layer fuel current distance) := by
  induction fuel generalizing current distance with
  | zero => exact hcur
  | succ fuel ih =>
    have hp : P (descendPass key (h.neighbours current layer) current distance).1 :=
      descendPass_mem (hclosed current hcur) hcur
    rw [descendLoop]
    split
    next he => rw [he] at hp; exact ih hp
    next he => rw [he] at hp; exact hp

theorem greedyDescend_mem (hclosed : h.ClosedAt layer P) {entry : LocalId} (he : P entry) :
    P (greedyDescend h key entry layer) :=
  descendLoop_mem hclosed _ he

/-- A descent from a node of the top layer stands on the lowest layer it visited. -/
theorem descendLayers_mem (key : LocalId → K) {Q : Nat → Nat → Prop} (hclosed : ∀ l, h.ClosedAt l (Q l))
    (hdown : ∀ l i, Q (l + 1) i → Q l i) (low top : Nat) {entry : LocalId}
    (he : Q top entry) : Q (min low top) (descendLayers h key low top entry) := by
  induction top generalizing entry with
  | zero => simpa [descendLayers] using he
  | succ top ih =>
    rw [descendLayers]
    split
    next hlt =>
      rw [show min low (top + 1) = min low top by omega]
      exact ih (hdown top _ (greedyDescend_mem (hclosed (top + 1)) he))
    next hge => rwa [show min low (top + 1) = top + 1 by omega]

end Descend

/-- What holds of the scratch space throughout a layer search: all nodes seen lie
in `P`, what is kept and what is still to expand was seen, and nothing is kept
twice. -/
structure SearchInv (key : LocalId → K) (P : Nat → Prop) (s : LayerSearch K) : Prop where
  visited_mem : ∀ i ∈ s.visited, P i
  frontier_visited : ∀ c ∈ s.frontier, c.localId ∈ s.visited
  best_visited : ∀ c ∈ s.best, c.localId ∈ s.visited
  best_key : ∀ c ∈ s.best, c.key = key c.localId
  best_nodup : (s.best.map Candidate.localId).Nodup

theorem searchInv_init (key : LocalId → K) (P : Nat → Prop) : SearchInv key P ⟨[], [], []⟩ := by
  constructor <;> simp

/-- Seeing a new node and keeping it, at the cost of others or not. -/
theorem SearchInv.keep {P : Nat → Prop} {s : LayerSearch K} (hs : SearchInv key P s) {i : LocalId} (hi : P i) (hnew : i ∉ s.visited)
    {frontier best : List (Candidate K)}
    (hf : ∀ c ∈ frontier, c ∈ s.frontier ∨ c = ⟨i, key i⟩)
    (hb : best.Subperm (⟨i, key i⟩ :: s.best)) :
    SearchInv key P ⟨i :: s.visited, frontier, best⟩ := by
  have hsub : ∀ c ∈ best, c ∈ s.best ∨ c = ⟨i, key i⟩ := by
    intro c hc
    have := hb.subset hc
    simpa [or_comm] using this
  refine ⟨?_, ?_, ?_, ?_, ?_⟩
  · intro j hj
    rcases List.mem_cons.mp hj with rfl | hj
    · exact hi
    · exact hs.visited_mem j hj
  · intro c hc
    rcases hf c hc with hc | rfl
    · exact List.mem_cons_of_mem _ (hs.frontier_visited c hc)
    · simp
  · intro c hc
    rcases hsub c hc with hc | rfl
    · exact List.mem_cons_of_mem _ (hs.best_visited c hc)
    · simp
  · intro c hc
    rcases hsub c hc with hc | rfl
    · exact hs.best_key c hc
    · rfl
  · have hnot : i ∉ s.best.map Candidate.localId := by
      intro hm
      obtain ⟨c, hc, rfl⟩ := List.mem_map.mp hm
      exact hnew (hs.best_visited c hc)
    have hcons : ((⟨i, key i⟩ :: s.best).map Candidate.localId).Nodup :=
      List.nodup_cons.mpr ⟨hnot, hs.best_nodup⟩
    obtain ⟨l, hl, hsl⟩ := hb
    exact (hl.map _).nodup_iff.mp ((hsl.map _).nodup hcons)

variable [BEq K] [LT K] [DecidableLT K]

theorem mem_pushFrontier {l : List (Candidate K)} {c d : Candidate K} :
    d ∈ pushFrontier std l c ↔ d ∈ l ∨ d = c := by
  rw [pushFrontier, (std.pushHeap_perm _ _).mem_iff]
  simp

theorem pushBest_perm (l : List (Candidate K)) (c : Candidate K) :
    (pushBest std l c).Perm (c :: l) :=
  (std.pushHeap_perm _ _).trans (List.perm_append_singleton c l)

theorem trimBest_subperm (ef : Nat) (l : List (Candidate K)) : (trimBest std ef l).Subperm l := by
  unfold trimBest
  split
  · exact (List.dropLast_sublist _).subperm.trans (std.popHeap_perm _ _).subperm
  · exact .refl _

theorem length_trimBest (ef : Nat) (l : List (Candidate K)) :
    (trimBest std ef l).length = if ef < l.length then l.length - 1 else l.length := by
  unfold trimBest
  split
  · simp [(std.popHeap_perm _ _).length_eq]
  · rfl

section Step
variable {P : Nat → Prop} {s : LayerSearch K}

theorem SearchInv.offerEntry (hs : SearchInv key P s) {i : LocalId} (hi : P i) :
    SearchInv key P (offerEntry std key s i) := by
  unfold HnswIndex.offerEntry
  split
  · exact hs
  next hnew =>
    exact hs.keep hi hnew (fun c hc => mem_pushFrontier.mp hc) (pushBest_perm _ _).subperm

theorem SearchInv.offerNeighbour (hs : SearchInv key P s) (ef : Nat) {i : LocalId} (hi : P i) :
    SearchInv key P (offerNeighbour std key ef s i) := by
  unfold HnswIndex.offerNeighbour
  split
  · exact hs
  next hnew =>
    split
    · exact hs.keep hi hnew (fun c hc => mem_pushFrontier.mp hc)
        ((trimBest_subperm ef _).trans (pushBest_perm _ _).subperm)
    · exact hs.keep hi hnew (fun c hc => .inl hc) (List.sublist_cons_self _ _).subperm

theorem SearchInv.offerNeighbours (hs : SearchInv key P s) (ef : Nat) {l : List LocalId}
    (hl : ∀ i ∈ l, P i) : SearchInv key P (l.foldl (HnswIndex.offerNeighbour std key ef) s) := by
  induction l generalizing s with
  | nil => exact hs
  | cons i l ih =>
    exact ih (hs.offerNeighbour ef (hl i (by simp))) (fun j hj => hl j (by simp [hj]))

/-- Taking a candidate off the frontier. -/
theorem mem_of_mem_dropLast_popHeap {l : List (Candidate K)} {c : Candidate K}
    (hc : c ∈ (std.popHeap candidateWorse l).dropLast) : c ∈ l :=
  (std.popHeap_perm _ l).mem_iff.mp (List.mem_of_mem_dropLast hc)

theorem mem_of_getLast?_popHeap {l : List (Candidate K)} {c : Candidate K}
    (hc : (std.popHeap candidateWorse l).getLast? = some c) : c ∈ l :=
  (std.popHeap_perm _ l).mem_iff.mp (List.mem_of_getLast? hc)

theorem SearchInv.pop (hs : SearchInv key P s) :
    SearchInv key P
      { s with frontier := (std.popHeap candidateWorse s.frontier).dropLast } :=
  { hs with frontier_visited := fun c hc => hs.frontier_visited c (mem_of_mem_dropLast_popHeap hc) }

theorem SearchInv.searchLoop (std : StdAlgorithms (Candidate K)) {layer : Nat} (hs : SearchInv key P s) (hclosed : h.ClosedAt layer P)
    (ef fuel : Nat) : SearchInv key P (searchLoop std h key ef layer fuel s) := by
  induction fuel generalizing s with
  | zero => exact hs
  | succ fuel ih =>
    rw [HnswIndex.searchLoop]
    split
    · exact hs
    next current hcur =>
      dsimp only
      split
      · exact hs.pop
      · apply ih
        have hP : P current.localId :=
          hs.visited_mem _ (hs.frontier_visited _ (mem_of_getLast?_popHeap hcur))
        exact hs.pop.offerNeighbours ef (hclosed _ hP)

end Step

theorem searchInv_entries (std : StdAlgorithms (Candidate K)) (key : LocalId → K) {P : Nat → Prop} {entries : List LocalId} (he : ∀ i ∈ entries, P i) :
    SearchInv key P (entries.foldl (offerEntry std key) ⟨[], [], []⟩) := by
  suffices ∀ s, SearchInv key P s → SearchInv key P (entries.foldl (offerEntry std key) s) from
    this _ (searchInv_init key P)
  induction entries with
  | nil => exact fun _ hs => hs
  | cons i entries ih =>
    intro s hs
    exact ih (fun j hj => he j (by simp [hj])) _ (hs.offerEntry (he i (by simp)))

section Found
variable {P : Nat → Prop} {layer : Nat} {entries : List LocalId} (ef : Nat)

/-- Every node found is an entry point or led to by neighbour lists, with its own key. -/
theorem searchLayer_mem (hclosed : h.ClosedAt layer P) (he : ∀ i ∈ entries, P i)
    {c : Candidate K} (hc : c ∈ searchLayer std h key entries ef layer) :
    P c.localId ∧ c.key = key c.localId := by
  have hs := (searchInv_entries std key he).searchLoop std hclosed ef
    (h.nodeCount + 1)
  have hbest := (std.sort_perm _ _).mem_iff.mp hc
  exact ⟨hs.visited_mem _ (hs.best_visited c hbest), hs.best_key c hbest⟩

/-- No node is found twice. -/
theorem searchLayer_nodup (std : StdAlgorithms (Candidate K)) (h : HnswIndex)
    (key : LocalId → K) (entries : List LocalId) (ef layer : Nat) :
    ((searchLayer std h key entries ef layer).map Candidate.localId).Nodup := by
  have hclosed : h.ClosedAt layer fun _ => True := fun _ _ _ _ => trivial
  have hentries : ∀ i ∈ entries, (fun _ : Nat => True) i := fun _ _ => trivial
  have hs := (searchInv_entries std key hentries).searchLoop std hclosed ef (h.nodeCount + 1)
  exact ((std.sort_perm _ _).map _).nodup_iff.mpr hs.best_nodup

end Found

section Select

/-- The neighbours chosen are candidates, none twice, and fit the limit. -/
theorem selectNeighbours_spec (std : StdAlgorithms (Candidate K))
    (between : LocalId → LocalId → K) (candidates : List (Candidate K)) (limit : Nat) :
    let r := selectNeighbours std between candidates limit
    ((candidates.map Candidate.localId).Nodup → r.1.Nodup) ∧ r.1.length ≤ limit ∧ (∀ i ∈ r.1, i ∈ candidates.map Candidate.localId) ∧
      r.2.Perm candidates := by
  intro r
  by_cases hle : candidates.length ≤ limit
  · have hr : r = (candidates.map Candidate.localId, candidates) := if_pos hle
    rw [hr]
    exact ⟨id, by simpa using hle, fun i hi => hi, .refl _⟩
  · have hperm := std.sort_perm candidateBetter candidates
    let sorted := std.sort candidateBetter candidates
    have hr : r = (sorted.foldl (pickRejected limit) (sorted.foldl (pickDiverse between limit) []),
        sorted) := if_neg hle
    have hmem : ∀ i, i ∈ sorted.map Candidate.localId ↔ i ∈ candidates.map Candidate.localId :=
      fun i => (hperm.map _).mem_iff
    obtain ⟨picked, hsub, heq, hlen⟩ :=
      foldl_pickDiverse between limit sorted []
    have hpicked : (candidates.map Candidate.localId).Nodup → picked.Nodup := fun hnodup =>
      hsub.nodup (((hperm.map _).nodup_iff).mpr hnodup)
    obtain ⟨hn, hl, hm⟩ := foldl_pickRejected (l := sorted) (by simpa using hlen)
    rw [hr, heq]
    refine ⟨fun hnodup => hn (hpicked hnodup), hl, fun i hi => ?_, hperm⟩
    rcases hm i hi with hi | hi
    · exact (hmem i).mp (hsub.subset hi)
    · exact (hmem i).mp hi

end Select

/-- What a search returns is live, whatever order it uses. -/
theorem live_of_mem_search {K : Type} [BEq K] [LT K] [DecidableLT K]
    {std : StdAlgorithms (Candidate K)} {h : HnswIndex} {view : SlotView K} {query : Query K}
    {params : SearchParams} {found : List (Candidate K)} {c : Candidate K}
    (hfound : search std h view query params = .ok found) (hc : c ∈ found) :
    view.live c.localId = true := by
  unfold search at hfound
  split at hfound
  · cases hfound
  · split at hfound
    · cases hfound
    · cases hfound
      unfold searchFrom at hc
      split at hc
      · cases hc
      · exact (List.mem_filter.mp (List.mem_of_mem_take hc)).2

section Ordered
variable {L : Type} [LinearOrder L] {std : StdAlgorithms (Candidate L)} {h : HnswIndex}
  {key : LocalId → L}

/-- The candidates of a layer search stand in rising order, each before the next. -/
theorem searchLayer_better (std : StdAlgorithms (Candidate L)) (h : HnswIndex) (key : LocalId → L)
    (entries : List LocalId) (ef layer : Nat) :
    (searchLayer std h key entries ef layer).Pairwise fun a b => candidateBetter a b = true := by
  have hsorted : (searchLayer std h key entries ef layer).Pairwise (NotAfter candidateBetter) :=
    std.sort_sorted candidateBetter _ strictWeak_candidateBetter
  have hnodup := searchLayer_nodup std h key entries ef layer
  rw [List.Nodup, List.pairwise_map] at hnodup
  refine hsorted.imp₂ (fun a b hab hne => ?_) hnodup
  rw [NotAfter, Bool.eq_false_iff, ne_eq, candidateBetter_iff, not_lt] at hab
  rw [candidateBetter_iff]
  refine lt_of_le_of_ne hab fun heq => hne ?_
  exact (Prod.ext_iff.mp (toLex_inj.mp heq)).2

/-- What a search returns: live slots in rising order, each with its own key. -/
theorem search_found (std : StdAlgorithms (Candidate L)) (h : HnswIndex) {view : SlotView L}
    {query : Query L} (params : SearchParams) (hk : params.k ≠ 0)
    (hquery : query.size = view.dimension) :
    ∃ found, search std h view query params = .ok found ∧
      (found.Pairwise fun a b => candidateBetter a b = true) ∧
      ∀ c ∈ found, view.live c.localId = true ∧ c.key = query.key c.localId := by
  refine ⟨_, by rw [search, if_neg hk, if_neg (not_not.mpr hquery)], ?_, ?_⟩
  all_goals
    unfold searchFrom
    split
  · exact .nil
  · exact ((searchLayer_better std h query.key _ _ 0).filter _).take
  · intro c hc
    cases hc
  · intro c hc
    obtain ⟨hfound, hlive⟩ := List.mem_filter.mp (List.mem_of_mem_take hc)
    exact ⟨hlive, (searchLayer_mem (P := fun _ => True) _ (fun _ _ _ _ => trivial)
      (fun _ _ => trivial) hfound).2⟩

end Ordered

end HnswIndex

end VectorDb.Index
