import VectorDb.Index.HnswReach
import VectorDb.Lib.Best

/-!
What a layer search returns: of the nodes it saw, those with the smallest keys.
-/
set_option autoImplicit false

namespace VectorDb.Index

open VectorDb.Lib

namespace HnswIndex

variable {L : Type} [LinearOrder L] {std : StdAlgorithms (Candidate L)} {key : LocalId → L}
variable {ef : Nat} {s : LayerSearch L}

/-- What is kept and what was dropped make up what was seen; only keys of a full list
decide what is dropped. -/
structure Ranked (key : LocalId → L) (ef : Nat) (s : LayerSearch L) : Prop where
  isHeap : IsHeap candidateBetter s.best
  length_le : s.best.length ≤ ef
  dropped : ∃ dropped : List (Candidate L),
    (s.best ++ dropped).Perm (s.visited.map fun i => ⟨i, key i⟩) ∧
    (dropped ≠ [] → s.best.length = ef) ∧ ∀ a ∈ s.best, ∀ b ∈ dropped, a.key ≤ b.key

/-- A full list gives up one with the greatest key for the new one. -/
theorem trimBest_full (std : StdAlgorithms (Candidate L)) {best : List (Candidate L)}
    (hheap : IsHeap candidateBetter best) (hfull : best.length = ef) (c : Candidate L) :
    ∃ worst, IsHeap candidateBetter (trimBest std ef (pushBest std best c)) ∧
      (worst :: trimBest std ef (pushBest std best c)).Perm (c :: best) ∧
      ∀ a ∈ trimBest std ef (pushBest std best c), a.key ≤ worst.key := by
  have hlt := strictWeak_candidateBetter (L := L)
  have hpush : IsHeap candidateBetter (pushBest std best c) :=
    std.pushHeap_isHeap _ _ _ hlt hheap
  have hperm : (pushBest std best c).Perm (c :: best) := pushBest_perm best c
  have hlen : (pushBest std best c).length = best.length + 1 := length_pushBest best c
  rw [trimBest, if_pos (by omega)]
  cases hheap' : pushBest std best c with
  | nil => simp [hheap'] at hlen
  | cons worst rest =>
    rw [hheap'] at hpush hperm
    obtain ⟨r, hpop, hr⟩ := std.popHeap_isHeap candidateBetter worst rest hlt hpush
    have hrest : (worst :: r).Perm (worst :: rest) := by
      have hp := std.popHeap_perm candidateBetter (worst :: rest)
      rw [hpop] at hp
      exact (List.perm_append_singleton worst r).symm.trans hp
    rw [hpop, List.dropLast_concat]
    refine ⟨worst, hr, hrest.trans hperm, fun a ha => ?_⟩
    obtain ⟨i, hi⟩ := List.getElem?_of_mem (hrest.mem_iff.mp (List.mem_cons_of_mem worst ha))
    exact key_le_of_notAfter (hpush.front hlt rfl hi)

theorem Ranked.offerNeighbour (std : StdAlgorithms (Candidate L)) (hs : Ranked key ef s)
    (hef : 0 < ef) (i : LocalId) : Ranked key ef (offerNeighbour std key ef s i) := by
  obtain ⟨dropped, hperm, hfull, hbest⟩ := hs.dropped
  have hle := hs.length_le
  unfold HnswIndex.offerNeighbour
  split
  · exact hs
  next hnew =>
    by_cases hroom : s.best.length < ef
    · have hnil : dropped = [] := by
        by_contra hne
        have := hfull hne
        omega
      subst hnil
      have htrim : trimBest std ef (pushBest std s.best ⟨i, key i⟩) =
          pushBest std s.best ⟨i, key i⟩ := by
        rw [trimBest, if_neg (by rw [length_pushBest]; omega)]
      rw [if_pos (by simp [admits, hroom]), htrim]
      refine ⟨std.pushHeap_isHeap _ _ _ strictWeak_candidateBetter hs.isHeap, ?_, [], ?_,
        by simp, by simp⟩
      · rw [length_pushBest]
        omega
      · rw [List.append_nil] at hperm ⊢
        exact (pushBest_perm _ _).trans (hperm.cons _)
    · have hlen : s.best.length = ef := by omega
      obtain ⟨front, rest, hfront⟩ := List.exists_cons_of_length_pos (l := s.best) (by omega)
      have hmax : ∀ a ∈ s.best, a.key ≤ front.key := by
        intro a ha
        obtain ⟨j, hj⟩ := List.getElem?_of_mem ha
        exact key_le_of_notAfter
          (hs.isHeap.front strictWeak_candidateBetter (by simp [hfront]) hj)
      have hadmits : admits ef s.best (key i) = decide (key i < front.key) := by
        simp [admits, hfront, hfront.symm ▸ hlen]
      have hseen : (⟨i, key i⟩ :: s.best ++ dropped).Perm
          ((i :: s.visited).map fun i => (⟨i, key i⟩ : Candidate L)) := hperm.cons _
      rw [hadmits]
      by_cases hcloser : key i < front.key
      · obtain ⟨worst, hheap, hall, hworst⟩ := trimBest_full std hs.isHeap hlen ⟨i, key i⟩
        have hcount := hall.length_eq
        simp only [List.length_cons] at hcount
        rw [if_pos (by simpa using hcloser)]
        refine ⟨hheap, by dsimp only; omega, worst :: dropped, ?_, fun _ => by dsimp only; omega,
          fun a ha b hb => ?_⟩
        · exact List.perm_middle.trans ((hall.append_right dropped).trans hseen)
        · rcases List.mem_cons.mp hb with rfl | hb
          · exact hworst a ha
          · rcases List.mem_cons.mp (hall.mem_iff.mp (List.mem_cons_of_mem _ ha)) with rfl | ha
            · exact hcloser.le.trans (hbest front (by simp [hfront]) b hb)
            · exact hbest a ha b hb
      · rw [if_neg (by simpa using hcloser)]
        refine ⟨hs.isHeap, hle, ⟨i, key i⟩ :: dropped, ?_, fun _ => hlen, fun a ha b hb => ?_⟩
        · exact List.perm_middle.trans hseen
        · rcases List.mem_cons.mp hb with rfl | hb
          · exact (hmax a ha).trans (not_lt.mp hcloser)
          · exact hbest a ha b hb

theorem isHeap_entries (std : StdAlgorithms (Candidate L)) (key : LocalId → L)
    (entries : List LocalId) :
    IsHeap candidateBetter (entries.foldl (offerEntry std key) ⟨[], [], []⟩).best := by
  suffices ∀ s : LayerSearch L, IsHeap candidateBetter s.best →
      IsHeap candidateBetter (entries.foldl (offerEntry std key) s).best from
    this _ (isHeap_nil _)
  induction entries with
  | nil => exact fun _ hs => hs
  | cons i entries ih =>
    intro s hs
    refine ih _ ?_
    unfold offerEntry
    split
    · exact hs
    · exact std.pushHeap_isHeap _ _ _ strictWeak_candidateBetter hs

theorem ranked_entries (std : StdAlgorithms (Candidate L)) (key : LocalId → L)
    {entries : List LocalId} (hef : entries.length ≤ ef) :
    Ranked key ef (entries.foldl (offerEntry std key) ⟨[], [], []⟩) := by
  obtain ⟨hentered, _, hlen⟩ := entered_entries std key entries
  have hbest := hentered.best.length_eq
  rw [List.length_map] at hbest
  exact ⟨isHeap_entries std key entries, by omega, [], by simpa using hentered.best, by simp,
    by simp⟩

/-- What is kept are the smallest keys, as many as there is room for. -/
theorem Ranked.keys_eq (hs : Ranked key ef s) :
    ((std.sort candidateBetter s.best).map Candidate.key) =
      best (· ≤ ·) ef (s.visited.map key) := by
  obtain ⟨dropped, hperm, hfull, hbest⟩ := hs.dropped
  have hfound := std.sort_perm candidateBetter s.best
  have hsorted := std.sort_sorted candidateBetter s.best strictWeak_candidateBetter
  have hkeys : ((std.sort candidateBetter s.best).map Candidate.key ++
      dropped.map Candidate.key).Perm (s.visited.map key) := by
    rw [← List.map_append]
    have hall := ((hfound.append_right dropped).trans hperm).map Candidate.key
    rwa [List.map_map] at hall
  refine (best_eq_front _ hkeys ?_ ?_ ?_ ?_).symm
  · exact List.pairwise_map.mpr (hsorted.imp key_le_of_notAfter)
  · intro x hx y hy
    obtain ⟨a, ha, rfl⟩ := List.mem_map.mp hx
    obtain ⟨b, hb, rfl⟩ := List.mem_map.mp hy
    exact hbest a (hfound.mem_iff.mp ha) b hb
  · rw [List.length_map, hfound.length_eq]
    exact hs.length_le
  · intro hne
    rw [List.length_map, hfound.length_eq]
    exact hfull (by simpa using hne)

theorem nodup_offerNeighbour_visited (s : LayerSearch L) (i : LocalId) (hs : s.visited.Nodup) :
    (offerNeighbour std key ef s i).visited.Nodup := by
  unfold offerNeighbour
  split
  · exact hs
  next hnew => split <;> exact List.nodup_cons.mpr ⟨hnew, hs⟩

variable {h : HnswIndex} {layer : Nat}

theorem Representation.closedAt (hR : h.Representation) (layer : Nat) :
    h.ClosedAt layer (h.HasBlock · layer) := by
  intro i hi j hj
  obtain ⟨hlt, _, hle⟩ := hR.neighbour i layer hi j hj
  exact ⟨hlt, hle⟩

theorem Representation.closedAt_nodes (hR : h.Representation) (layer : Nat) :
    h.ClosedAt layer (· < h.nodeCount) := by
  intro i _ j hj
  by_cases hb : h.HasBlock i layer
  · exact (hR.closedAt layer i hb j hj).1
  · rw [neighbours_of_not_hasBlock hb] at hj
    simp at hj

/-- The nodes the lists of a layer lead to from some entry points. -/
def Reached (h : HnswIndex) (layer : Nat) (entries : List LocalId) : Set Nat :=
  { i | ∃ entry ∈ entries, h.Leads layer entry i }

theorem Representation.reached_lt (hR : h.Representation) {entries : List LocalId}
    (he : ∀ i ∈ entries, h.HasBlock i layer) {i : Nat} (hi : i ∈ h.Reached layer entries) :
    i < h.nodeCount := by
  obtain ⟨entry, hentry, hleads⟩ := hi
  exact (hR.closedAt_nodes layer).leads (he entry hentry).1 hleads

/-- With room for all nodes its entries lead to, a layer search returns them all. -/
theorem mem_searchLayer_of_room (std : StdAlgorithms (Candidate L)) (hR : h.Representation)
    (key : LocalId → L) {entries : List LocalId} (he : ∀ i ∈ entries, h.HasBlock i layer)
    (hroom : (h.Reached layer entries).ncard ≤ ef) (i : Nat) :
    i ∈ (searchLayer std h key entries ef layer).map Candidate.localId ↔
      i ∈ h.Reached layer entries := by
  let ids := (searchLayer std h key entries ef layer).map Candidate.localId
  have hnodup : ids.Nodup := searchLayer_nodup std h key entries ef layer
  have hsub : (ids.toFinset : Set Nat) ⊆ h.Reached layer entries := by
    intro j hj
    obtain ⟨c, hc, rfl⟩ := List.mem_map.mp (List.mem_toFinset.mp (Finset.mem_coe.mp hj))
    exact (searchLayer_leads std h key ef layer hc).1
  refine ⟨fun hi => hsub (Finset.mem_coe.mpr (List.mem_toFinset.mpr hi)), fun hi => ?_⟩
  by_cases hlt : (searchLayer std h key entries ef layer).length < ef
  · obtain ⟨entry, hentry, hleads⟩ := hi
    exact searchLayer_exhaustive std key (hR.closedAt_nodes layer) (fun j hj => (he j hj).1) hlt
      hentry hleads
  · have hfinite : (h.Reached layer entries).Finite :=
      (Set.finite_Iio h.nodeCount).subset fun j hj => hR.reached_lt he hj
    have hcard : (ids.toFinset : Set Nat).ncard = ids.length := by
      rw [Set.ncard_coe_finset, List.toFinset_card_of_nodup hnodup]
    have hlen : ids.length = (searchLayer std h key entries ef layer).length := List.length_map _
    have heq := Set.eq_of_subset_of_ncard_le hsub (by omega) hfinite
    rw [← heq] at hi
    exact List.mem_toFinset.mp (Finset.mem_coe.mp hi)

/-- A layer search ends, and returns the nodes with the smallest keys of those it saw. -/
theorem searchLayer_spec (std : StdAlgorithms (Candidate L)) (hR : h.Representation)
    (key : LocalId → L) {entries : List LocalId} (hne : entries ≠ [])
    (hle : entries.length ≤ ef) (he : ∀ i ∈ entries, h.HasBlock i layer) :
    let found := searchLayer std h key entries ef layer
    (∃ last, LoopEnds std h key ef layer (entries.foldl (offerEntry std key) ⟨[], [], []⟩) last ∧
      found = std.sort candidateBetter last.best ∧
      last.visited.Nodup ∧ entries ⊆ last.visited ∧
      (∀ i ∈ last.visited, i ∈ h.Reached layer entries) ∧
      found.length = min ef last.visited.length ∧
      (∀ c ∈ found, c.localId ∈ last.visited) ∧
      found.map Candidate.key = best (· ≤ ·) ef (last.visited.map key)) ∧
    (found.Pairwise fun a b => candidateBetter a b = true) ∧
    (found.map Candidate.localId).Nodup ∧
    (∀ c ∈ found, c.localId ∈ h.Reached layer entries ∧ c.key = key c.localId) ∧
    ((h.Reached layer entries).ncard ≤ ef →
      ∀ i, i ∈ found.map Candidate.localId ↔ i ∈ h.Reached layer entries) := by
  intro found
  have hef : 0 < ef := (List.length_pos_iff.mpr hne).trans_le hle
  obtain ⟨hentered, hvisited, _⟩ := entered_entries std key entries
  let last := searchLoop std h key ef layer (h.nodeCount + 1)
    (entries.foldl (offerEntry std key) ⟨[], [], []⟩)
  have hends : LoopEnds std h key ef layer (entries.foldl (offerEntry std key) ⟨[], [], []⟩) last :=
    searchLayer_ends std key (hR.closedAt_nodes layer) (fun i hi => (he i hi).1) ef
  have hranked : Ranked key ef last :=
    hends.keeps (fun s hs => ⟨hs.isHeap, hs.length_le, hs.dropped⟩)
      (fun s i hs => hs.offerNeighbour std hef i) (ranked_entries std key hle)
  have hinv : SearchInv key (· ∈ h.Reached layer entries) last :=
    (searchInv_entries std key fun i hi => ⟨i, hi, .refl⟩).searchLoop std
      (fun i ⟨entry, hentry, hi⟩ j hj => ⟨entry, hentry, hi.tail hj⟩) ef _
  have hkeys : found.map Candidate.key = best (· ≤ ·) ef (last.visited.map key) :=
    hranked.keys_eq
  have hlen := congrArg List.length hkeys
  rw [List.length_map, length_best, List.length_map] at hlen
  have hnodup : last.visited.Nodup :=
    hends.keeps (fun _ hs => hs) nodup_offerNeighbour_visited hentered.nodup
  refine ⟨⟨last, hends, rfl, hnodup, fun i hi => (hends.finished hentered.progress).2
    ((hvisited i).mpr hi), hinv.visited_mem, hlen, fun c hc => hinv.best_visited c
      ((std.sort_perm _ _).mem_iff.mp hc), hkeys⟩, searchLayer_better std h key entries ef layer,
    searchLayer_nodup std h key entries ef layer, fun c hc => searchLayer_leads std h key ef layer hc,
    fun hroom i => mem_searchLayer_of_room std hR key he hroom i⟩

/-- Three nodes, searched on layer 0 from the first with room for all of them. -/
theorem searchLayer_spec_three :
    ∃ h : HnswIndex, h.nodeLevel = [0, 2, 1] ∧ ∀ i,
      i ∈ (searchLayer .insertion h (fun i => i % 2) [0] 3 0).map Candidate.localId ↔
        i ∈ h.Reached 0 [0] := by
  let view : SlotView Nat := ⟨1, 3, by decide, fun _ _ => 0, fun _ => true⟩
  obtain ⟨h, _, hI, hnodes, _⟩ := addLevels_invariant .insertion view
    (empty_invariant .cosine ⟨2, 2, 1, 0⟩) (show ∀ l ∈ [0, 2, 1], l ≤ 254 by decide) (by decide)
  have hlevel : h.nodeLevel = [0, 2, 1] := hnodes
  have hcount : h.nodeCount = 3 := by simp [nodeCount, hlevel]
  have hentry : ∀ i ∈ [0], h.HasBlock i 0 := by simp [HasBlock, hcount]
  have hroom : (h.Reached 0 [0]).ncard ≤ 3 := by
    have hsub : h.Reached 0 [0] ⊆ Set.Iio 3 := fun i hi =>
      hcount ▸ hI.representation.reached_lt hentry hi
    calc (h.Reached 0 [0]).ncard ≤ (Set.Iio 3).ncard := Set.ncard_le_ncard hsub (Set.finite_Iio 3)
      _ = 3 := by simp [Set.ncard_eq_toFinset_card']
  exact ⟨h, hlevel, (searchLayer_spec .insertion hI.representation (fun i => i % 2) (by simp)
    (by simp) hentry).2.2.2.2 hroom⟩

end HnswIndex

end VectorDb.Index
