import VectorDb.Index.HnswInvariant

/-!
How far a layer search gets: it keeps `ef` nodes, or every node its entry points
lead to.
-/
set_option autoImplicit false

namespace VectorDb.Index

open VectorDb.Lib

namespace HnswIndex

/-- The lists of the layer lead from one node to the other. -/
def Leads (h : HnswIndex) (layer : Nat) : Nat → Nat → Prop :=
  Relation.ReflTransGen fun i j => j ∈ h.neighbours i layer

theorem ClosedAt.leads {h : HnswIndex} {layer : Nat} {P : Nat → Prop} (hP : h.ClosedAt layer P)
    {i j : Nat} (hi : P i) (hl : h.Leads layer i j) : P j := by
  induction hl with
  | refl => exact hi
  | tail _ hstep ih => exact hP _ ih _ hstep

variable {K : Type} {std : StdAlgorithms (Candidate K)} {h : HnswIndex} {key : LocalId → K}
variable {layer ef : Nat} {s : LayerSearch K}

/-- While fewer than `ef` are kept, all that was seen is kept and waits in the
frontier, was opened, or has led to all it leads to. -/
structure Progress (h : HnswIndex) (layer ef : Nat) (opened : List LocalId)
    (s : LayerSearch K) : Prop where
  nodup : s.visited.Nodup
  kept : s.best.length < ef → ∀ i ∈ s.visited, i ∈ s.best.map Candidate.localId
  led : s.best.length < ef → ∀ i ∈ s.visited, i ∈ s.frontier.map Candidate.localId ∨
    i ∈ opened ∨ ∀ j ∈ h.neighbours i layer, j ∈ s.visited

/-- After the entry points, all that was seen is kept and queued. -/
structure Entered (key : LocalId → K) (s : LayerSearch K) : Prop where
  nodup : s.visited.Nodup
  best : s.best.Perm (s.visited.map fun i => ⟨i, key i⟩)
  frontier : s.frontier.Perm (s.visited.map fun i => ⟨i, key i⟩)

theorem Entered.progress (hs : Entered key s) : Progress h layer ef [] s := by
  refine ⟨hs.nodup, fun _ i hi => ?_, fun _ i hi => .inl ?_⟩
  · rw [(hs.best.map _).mem_iff]
    simpa using hi
  · rw [(hs.frontier.map _).mem_iff]
    simpa using hi

variable [BEq K] [LT K] [DecidableLT K]

theorem length_pushBest (best : List (Candidate K)) (c : Candidate K) :
    (pushBest std best c).length = best.length + 1 := by
  simp [pushBest, (std.pushHeap_perm _ _).length_eq]

theorem length_pushFrontier (frontier : List (Candidate K)) (c : Candidate K) :
    (pushFrontier std frontier c).length = frontier.length + 1 := by
  simp [pushFrontier, (std.pushHeap_perm _ _).length_eq]

theorem mem_offerNeighbour_visited (s : LayerSearch K) (i : LocalId) (j : LocalId) :
    j ∈ (offerNeighbour std key ef s i).visited ↔ j = i ∨ j ∈ s.visited := by
  unfold offerNeighbour
  split
  next hi =>
    constructor
    · exact .inr
    · rintro (rfl | hj)
      · exact hi
      · exact hj
  next => split <;> simp

/-- What an offer puts in the frontier it also marks visited. -/
theorem length_offerNeighbour_frontier (std : StdAlgorithms (Candidate K)) (key : LocalId → K)
    (ef : Nat) (s : LayerSearch K) (i : LocalId) :
    (offerNeighbour std key ef s i).frontier.length + s.visited.length ≤
      s.frontier.length + (offerNeighbour std key ef s i).visited.length := by
  unfold offerNeighbour
  split
  · omega
  · split
    · simp only [length_pushFrontier, List.length_cons]
      omega
    · simp only [List.length_cons]
      omega

theorem length_offerNeighbours_frontier (std : StdAlgorithms (Candidate K)) (key : LocalId → K)
    (ef : Nat) (l : List LocalId) (s : LayerSearch K) :
    (l.foldl (offerNeighbour std key ef) s).frontier.length + s.visited.length ≤
      s.frontier.length + (l.foldl (offerNeighbour std key ef) s).visited.length := by
  induction l generalizing s with
  | nil => simp
  | cons i l ih =>
    have h1 := length_offerNeighbour_frontier std key ef s i
    have h2 := ih (offerNeighbour std key ef s i)
    simp only [List.foldl_cons]
    omega

theorem mem_offerNeighbours_visited (l : List LocalId) (s : LayerSearch K) (j : LocalId) :
    j ∈ (l.foldl (offerNeighbour std key ef) s).visited ↔ j ∈ l ∨ j ∈ s.visited := by
  induction l generalizing s with
  | nil => simp
  | cons i l ih =>
    rw [List.foldl_cons, ih, mem_offerNeighbour_visited, List.mem_cons, or_assoc, or_left_comm]

/-- With room for it, an offered node is seen, kept and queued. -/
theorem Progress.offerNeighbour (std : StdAlgorithms (Candidate K)) (key : LocalId → K)
    {opened : List LocalId} (hp : Progress h layer ef opened s) (i : LocalId) :
    Progress h layer ef opened (offerNeighbour std key ef s i) := by
  unfold HnswIndex.offerNeighbour
  split
  · exact hp
  next hnew =>
    split
    next hadmit =>
      have hroom : (trimBest std ef (pushBest std s.best ⟨i, key i⟩)).length < ef →
          s.best.length < ef ∧
            trimBest std ef (pushBest std s.best ⟨i, key i⟩) = pushBest std s.best ⟨i, key i⟩ := by
        intro hlt
        rw [length_trimBest, length_pushBest] at hlt
        split at hlt
        · omega
        · exact ⟨by omega, by rw [trimBest, if_neg (by rwa [length_pushBest])]⟩
      refine ⟨List.nodup_cons.mpr ⟨hnew, hp.nodup⟩, fun hlt j hj => ?_, fun hlt j hj => ?_⟩
      · obtain ⟨hlt, he⟩ := hroom hlt
        simp only [he]
        rw [((pushBest_perm _ _).map _).mem_iff, List.map_cons]
        exact List.mem_cons.mpr ((List.mem_cons.mp hj).imp id (hp.kept hlt j))
      · have hfront : ∀ m, m = i ∨ m ∈ s.frontier.map Candidate.localId →
            m ∈ (pushFrontier std s.frontier ⟨i, key i⟩).map Candidate.localId := by
          intro m hm
          rw [pushFrontier, ((std.pushHeap_perm _ _).map _).mem_iff]
          simpa [or_comm] using hm
        rcases List.mem_cons.mp hj with rfl | hj
        · exact .inl (hfront j (.inl rfl))
        · rcases hp.led (hroom hlt).1 j hj with hf | ho | hn
          · exact .inl (hfront j (.inr hf))
          · exact .inr (.inl ho)
          · exact .inr (.inr fun m hm => List.mem_cons_of_mem _ (hn m hm))
    next hfull =>
      have hle : ef ≤ s.best.length := by
        simp only [admits, Bool.or_eq_true, decide_eq_true_eq, not_or] at hfull
        omega
      exact ⟨List.nodup_cons.mpr ⟨hnew, hp.nodup⟩, fun hlt => absurd hlt (by simpa using hle),
        fun hlt => absurd hlt (by simpa using hle)⟩

theorem Progress.offerNeighbours (std : StdAlgorithms (Candidate K)) (key : LocalId → K)
    {opened : List LocalId} (hp : Progress h layer ef opened s) (l : List LocalId) :
    Progress h layer ef opened (l.foldl (HnswIndex.offerNeighbour std key ef) s) := by
  induction l generalizing s with
  | nil => exact hp
  | cons i l ih => exact ih (hp.offerNeighbour std key i)

/-- Taking a node off the frontier opens it. -/
theorem Progress.pop (hp : Progress h layer ef [] s) {current : Candidate K}
    (hc : (std.popHeap candidateWorse s.frontier).getLast? = some current) :
    Progress h layer ef [current.localId]
      { s with frontier := (std.popHeap candidateWorse s.frontier).dropLast } := by
  refine ⟨hp.nodup, hp.kept, fun hlt i hi => ?_⟩
  rcases hp.led hlt i hi with hf | ho | hn
  · rw [← ((std.popHeap_perm candidateWorse s.frontier).map _).mem_iff,
      ← List.dropLast_append_getLast? current hc] at hf
    simp only [List.map_append, List.map_cons, List.map_nil, List.mem_append,
      List.mem_singleton] at hf
    rcases hf with hf | hf
    · exact .inl hf
    · exact .inr (.inl (by simp [hf]))
  · simp at ho
  · exact .inr (.inr hn)

/-- Once its neighbours were offered, an opened node has led to all it leads to. -/
theorem Progress.expand (std : StdAlgorithms (Candidate K)) (key : LocalId → K) {i : LocalId}
    (hp : Progress h layer ef [i] s) :
    Progress h layer ef []
      ((h.neighbours i layer).foldl (HnswIndex.offerNeighbour std key ef) s) := by
  have hq := hp.offerNeighbours std key (h.neighbours i layer)
  refine ⟨hq.nodup, hq.kept, fun hlt j hj => ?_⟩
  rcases hq.led hlt j hj with hf | ho | hn
  · exact .inl hf
  · rw [List.mem_singleton.mp ho]
    exact .inr (.inr fun m hm => (mem_offerNeighbours_visited _ _ m).mpr (.inl hm))
  · exact .inr (.inr hn)

/-- At its end a search keeps `ef` nodes, or all it saw and all that leads to. -/
structure Finished (h : HnswIndex) (layer ef : Nat) (s : LayerSearch K) : Prop where
  kept : s.best.length < ef → ∀ i ∈ s.visited, i ∈ s.best.map Candidate.localId
  closed : s.best.length < ef → h.ClosedAt layer (· ∈ s.visited)

omit [BEq K] [LT K] [DecidableLT K] in
theorem length_visited_le {n : Nat} (hs : SearchInv key (· < n) s) (hnd : s.visited.Nodup) :
    s.visited.length ≤ n := by
  have hsub : s.visited ⊆ List.range n := fun i hi => List.mem_range.mpr (hs.visited_mem i hi)
  simpa using (List.subperm_of_subset hnd hsub).length_le

/-- How the loop of a layer search ends: nothing is left to expand, or the nearest left is
farther than all that is kept. -/
inductive LoopEnds (std : StdAlgorithms (Candidate K)) (h : HnswIndex) (key : LocalId → K)
    (ef layer : Nat) : LayerSearch K → LayerSearch K → Prop where
  | empty {s : LayerSearch K} : (std.popHeap candidateWorse s.frontier).getLast? = none →
      LoopEnds std h key ef layer s s
  | stop {s : LayerSearch K} {current : Candidate K} :
      (std.popHeap candidateWorse s.frontier).getLast? = some current →
      stops ef s.best current = true →
      LoopEnds std h key ef layer s
        { s with frontier := (std.popHeap candidateWorse s.frontier).dropLast }
  | expand {s t : LayerSearch K} {current : Candidate K} :
      (std.popHeap candidateWorse s.frontier).getLast? = some current →
      stops ef s.best current = false →
      LoopEnds std h key ef layer ((h.neighbours current.localId layer).foldl
        (offerNeighbour std key ef)
        { s with frontier := (std.popHeap candidateWorse s.frontier).dropLast }) t →
      LoopEnds std h key ef layer s t

/-- A turn of the loop takes one node off the frontier and puts in only nodes it had not
seen. -/
theorem expand_progress (std : StdAlgorithms (Candidate K)) {n : Nat}
    (hclosed : h.ClosedAt layer (· < n)) (hs : SearchInv key (· < n) s)
    (hp : Progress h layer ef [] s) {current : Candidate K}
    (hcur : (std.popHeap candidateWorse s.frontier).getLast? = some current) :
    let next := (h.neighbours current.localId layer).foldl (offerNeighbour std key ef)
      { s with frontier := (std.popHeap candidateWorse s.frontier).dropLast }
    SearchInv key (· < n) next ∧ Progress h layer ef [] next ∧
      next.frontier.length + (n - next.visited.length) <
        s.frontier.length + (n - s.visited.length) := by
  have hlt : current.localId < n :=
    hs.visited_mem _ (hs.frontier_visited _ (mem_of_getLast?_popHeap hcur))
  have hs' : SearchInv key (· < n) ((h.neighbours current.localId layer).foldl
      (offerNeighbour std key ef)
      { s with frontier := (std.popHeap candidateWorse s.frontier).dropLast }) :=
    hs.pop.offerNeighbours ef (hclosed _ hlt)
  have hp' := (hp.pop hcur).expand std key
  have hlen : s.frontier.length =
      (std.popHeap candidateWorse s.frontier).dropLast.length + 1 := by
    have hperm := (std.popHeap_perm candidateWorse s.frontier).length_eq
    have hne : std.popHeap candidateWorse s.frontier ≠ [] := by
      intro hnil
      simp [hnil] at hcur
    have := List.length_pos_iff.mpr hne
    simp only [List.length_dropLast]
    omega
  have hgrow := length_offerNeighbours_frontier std key ef
    (h.neighbours current.localId layer)
    { s with frontier := (std.popHeap candidateWorse s.frontier).dropLast }
  have hle := length_visited_le hs' hp'.nodup
  exact ⟨hs', hp', by simp only at hgrow hle ⊢; omega⟩

/-- As many turns of the loop as there are nodes are enough. -/
theorem searchLoop_ends (std : StdAlgorithms (Candidate K)) {n : Nat}
    (hclosed : h.ClosedAt layer (· < n)) (hs : SearchInv key (· < n) s)
    (hp : Progress h layer ef [] s) (fuel : Nat)
    (hfuel : s.frontier.length + (n - s.visited.length) < fuel) :
    LoopEnds std h key ef layer s (searchLoop std h key ef layer fuel s) := by
  induction fuel generalizing s with
  | zero => omega
  | succ fuel ih =>
    rw [searchLoop]
    split
    next hnone => exact .empty hnone
    next current hcur =>
      dsimp only
      split
      next hstop => exact .stop hcur hstop
      next hgo =>
        obtain ⟨hs', hp', hless⟩ := expand_progress std hclosed hs hp hcur
        exact .expand hcur (Bool.not_eq_true _ ▸ hgo) (ih hs' hp' (by omega))

section Ends
variable {t : LayerSearch K}

/-- What a pop of the frontier and an offer keep, the loop keeps. -/
theorem LoopEnds.keeps {I : LayerSearch K → Prop} (hend : LoopEnds std h key ef layer s t)
    (hpop : ∀ s, I s →
      I { s with frontier := (std.popHeap candidateWorse s.frontier).dropLast })
    (hoffer : ∀ s i, I s → I (offerNeighbour std key ef s i)) (hs : I s) : I t := by
  have hoffers : ∀ (l : List LocalId) (s : LayerSearch K), I s →
      I (l.foldl (offerNeighbour std key ef) s) := by
    intro l
    induction l with
    | nil => exact fun _ hs => hs
    | cons i l ih => exact fun s hs => ih _ (hoffer s i hs)
  induction hend with
  | empty _ => exact hs
  | stop _ _ => exact hpop _ hs
  | expand _ _ _ ih => exact ih (hoffers _ _ (hpop _ hs))

theorem LoopEnds.finished (hend : LoopEnds std h key ef layer s t)
    (hp : Progress h layer ef [] s) : Finished h layer ef t ∧ s.visited ⊆ t.visited := by
  induction hend with
  | @empty s hnone =>
    have hempty : s.frontier = [] := by
      have hnil := List.getLast?_eq_none_iff.mp hnone
      exact List.Perm.eq_nil (hnil ▸ (std.popHeap_perm candidateWorse s.frontier).symm)
    refine ⟨⟨hp.kept, fun hlt i hi => ?_⟩, fun i hi => hi⟩
    rcases hp.led hlt i hi with hf | ho | hn
    · simp [hempty] at hf
    · simp at ho
    · exact hn
  | @stop s current hcur hstop =>
    have hle : ef ≤ s.best.length := by
      simp only [stops, Bool.and_eq_true, decide_eq_true_eq] at hstop
      exact hstop.1
    exact ⟨⟨fun hlt => absurd hlt (by simpa using hle),
      fun hlt => absurd hlt (by simpa using hle)⟩, fun i hi => hi⟩
  | expand hcur _ _ ih =>
    obtain ⟨hfin, hsub⟩ := ih ((hp.pop hcur).expand std key)
    exact ⟨hfin, fun i hi => hsub ((mem_offerNeighbours_visited _ _ i).mpr (.inr hi))⟩

end Ends

theorem Entered.offerEntry (std : StdAlgorithms (Candidate K)) (hs : Entered key s)
    (i : LocalId) : Entered key (offerEntry std key s i) := by
  unfold HnswIndex.offerEntry
  split
  · exact hs
  next hnew =>
    refine ⟨List.nodup_cons.mpr ⟨hnew, hs.nodup⟩, ?_, ?_⟩
    · exact (pushBest_perm _ _).trans (hs.best.cons _)
    · exact (std.pushHeap_perm _ _).trans
        ((List.perm_append_singleton _ _).trans (hs.frontier.cons _))

theorem mem_offerEntry_visited (s : LayerSearch K) (i j : LocalId) :
    j ∈ (offerEntry std key s i).visited ↔ j = i ∨ j ∈ s.visited := by
  unfold offerEntry
  split
  next hi =>
    constructor
    · exact .inr
    · rintro (rfl | hj)
      · exact hi
      · exact hj
  next => simp

theorem length_offerEntry_visited (std : StdAlgorithms (Candidate K)) (key : LocalId → K)
    (s : LayerSearch K) (i : LocalId) :
    (offerEntry std key s i).visited.length ≤ s.visited.length + 1 := by
  unfold offerEntry
  split <;> simp

theorem entered_entries (std : StdAlgorithms (Candidate K)) (key : LocalId → K)
    (entries : List LocalId) :
    let s := entries.foldl (offerEntry std key) ⟨[], [], []⟩
    Entered key s ∧ (∀ i, i ∈ s.visited ↔ i ∈ entries) ∧ s.visited.length ≤ entries.length := by
  suffices ∀ s : LayerSearch K, Entered key s →
      let t := entries.foldl (offerEntry std key) s
      Entered key t ∧ (∀ i, i ∈ t.visited ↔ i ∈ entries ∨ i ∈ s.visited) ∧
        t.visited.length ≤ entries.length + s.visited.length by
    simpa using this ⟨[], [], []⟩ ⟨by simp, by simp, by simp⟩
  induction entries with
  | nil => exact fun s hs => by simpa using hs
  | cons i entries ih =>
    intro s hs
    obtain ⟨hentered, hmem, hlen⟩ := ih _ (hs.offerEntry std i)
    refine ⟨hentered, fun j => ?_, ?_⟩
    · rw [List.foldl_cons, hmem, mem_offerEntry_visited, List.mem_cons, or_assoc, or_left_comm]
    · have hone := length_offerEntry_visited std key s i
      simp only [List.foldl_cons, List.length_cons]
      omega

/-- The loop of a layer search ends on its own. -/
theorem searchLayer_ends (std : StdAlgorithms (Candidate K)) (key : LocalId → K)
    (hclosed : h.ClosedAt layer (· < h.nodeCount)) {entries : List LocalId}
    (he : ∀ i ∈ entries, i < h.nodeCount) (ef : Nat) :
    let s := entries.foldl (offerEntry std key) ⟨[], [], []⟩
    LoopEnds std h key ef layer s (searchLoop std h key ef layer (h.nodeCount + 1) s) := by
  intro s
  obtain ⟨hentered, _, _⟩ := entered_entries std key entries
  have hs : SearchInv key (· < h.nodeCount) s := searchInv_entries std key he
  have hfrontier : s.frontier.length = s.visited.length := by
    simpa using hentered.frontier.length_eq
  have hle := length_visited_le hs hentered.nodup
  exact searchLoop_ends std hclosed hs hentered.progress (h.nodeCount + 1) (by omega)

/-- A layer search keeps `ef` nodes or more, or every node its entries lead to. -/
theorem searchLayer_exhaustive (std : StdAlgorithms (Candidate K)) (key : LocalId → K)
    (hclosed : h.ClosedAt layer (· < h.nodeCount)) {entries : List LocalId}
    (he : ∀ i ∈ entries, i < h.nodeCount)
    (hlt : (searchLayer std h key entries ef layer).length < ef) {entry i : Nat}
    (hentry : entry ∈ entries) (hi : h.Leads layer entry i) :
    i ∈ (searchLayer std h key entries ef layer).map Candidate.localId := by
  obtain ⟨hentered, hvisited, _⟩ := entered_entries std key entries
  obtain ⟨hfin, hsub⟩ := (searchLayer_ends std key hclosed he ef).finished hentered.progress
  have hlt' : (searchLoop std h key ef layer (h.nodeCount + 1)
      (entries.foldl (offerEntry std key) ⟨[], [], []⟩)).best.length < ef := by
    simpa [searchLayer, (std.sort_perm _ _).length_eq] using hlt
  have hseen := (hfin.closed hlt').leads (hsub ((hvisited entry).mpr hentry)) hi
  exact ((std.sort_perm _ _).map _).mem_iff.mpr (hfin.kept hlt' i hseen)

/-- What a layer search keeps is led to by one of its entries. -/
theorem searchLayer_leads (std : StdAlgorithms (Candidate K)) (h : HnswIndex)
    (key : LocalId → K) (ef layer : Nat) {entries : List LocalId} {c : Candidate K}
    (hc : c ∈ searchLayer std h key entries ef layer) :
    (∃ entry ∈ entries, h.Leads layer entry c.localId) ∧ c.key = key c.localId :=
  searchLayer_mem (P := fun i => ∃ entry ∈ entries, h.Leads layer entry i) ef
    (fun _ ⟨entry, hentry, hi⟩ _ hj => ⟨entry, hentry, hi.tail hj⟩)
    (fun i hi => ⟨i, hi, .refl⟩) hc

end HnswIndex

end VectorDb.Index
