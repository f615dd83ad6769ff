import VectorDb.Index.BruteForceIndex

/-!
A collector used again and again, and the merge of the sorted results of several.
-/
set_option autoImplicit false

namespace VectorDb.Index

open VectorDb.Lib

namespace TopKCollector

section Uses
variable {K : Type} [BEq K] [LT K] [DecidableLT K] (std : StdAlgorithms (Candidate K))

/-- False where `offer` would certainly drop the key; a tie may still win on its slot. -/
def wouldAccept [LE K] [DecidableLE K] (t : TopKCollector K) (key : K) : Bool :=
  if t.heap.length < t.k then true
  else
    match t.heap.head? with
    | none => false
    | some worst => decide (key ≤ worst.key)

def clear (t : TopKCollector K) : TopKCollector K := { t with heap := [] }

/-- Where `reserve` throws, the collector was emptied and has the new `k` already. -/
def reset (t : TopKCollector K) (k : Nat) : Except Error Unit × TopKCollector K :=
  if k = 0 then (.error (.invalidArgument "top-k requires k >= 1"), t)
  else (reserveCandidates k, ⟨k, []⟩)

/-- The calls that change a collector. -/
inductive Use (K : Type) where
  | offer (c : Candidate K)
  | clear
  | reset (k : Nat)
  | takeSorted

/-- No more is asked for than a vector can have room for. -/
def Use.Fits : Use K → Prop
  | .reset k => k ≤ kMaxCandidates
  | _ => True

/-- One call: what it returns or throws, and the collector it leaves. -/
def call (t : TopKCollector K) : Use K → Except Error (List (Candidate K)) × TopKCollector K
  | .offer c => (.ok [], t.offer std c)
  | .clear => (.ok [], t.clear)
  | .reset k => ((t.reset k).1.map fun _ => [], (t.reset k).2)
  | .takeSorted => t.takeSorted std

def after (t : TopKCollector K) (uses : List (Use K)) : TopKCollector K :=
  uses.foldl (fun t use => (t.call std use).2) t

/-- What the calls return or throw. -/
def results (t : TopKCollector K) : List (Use K) → List (Except Error (List (Candidate K)))
  | [] => []
  | use :: uses => (t.call std use).1 :: results (t.call std use).2 uses

end Uses

/-- What a collector is for: its bound, and what it was offered since it was last emptied. -/
structure Offers (K : Type) where
  k : Nat
  offered : List (Candidate K)

namespace Offers
variable {K : Type} [BEq K] [LT K] [DecidableLT K]

/-- Sort and take. -/
def call (o : Offers K) : Use K → Except Error (List (Candidate K)) × Offers K
  | .offer c => (.ok [], ⟨o.k, c :: o.offered⟩)
  | .clear => (.ok [], ⟨o.k, []⟩)
  | .reset k =>
    if k = 0 then (.error (.invalidArgument "top-k requires k >= 1"), o) else (.ok [], ⟨k, []⟩)
  | .takeSorted => (.ok (best (NotAfter candidateBetter) o.k o.offered), ⟨o.k, []⟩)

def results (o : Offers K) : List (Use K) → List (Except Error (List (Candidate K)))
  | [] => []
  | use :: uses => (o.call use).1 :: results (o.call use).2 uses

end Offers

variable {L : Type} [LinearOrder L] (std : StdAlgorithms (Candidate L))

/-- The collector holds the best of the offers. -/
structure Refines (t : TopKCollector L) (o : Offers L) : Prop where
  k_eq : t.k = o.k
  k_pos : 0 < t.k
  k_le : t.k ≤ kMaxCandidates
  kept : t.Kept o.offered

theorem refines_empty {k : Nat} (hk : 0 < k) (hmax : k ≤ kMaxCandidates) :
    Refines (⟨k, []⟩ : TopKCollector L) ⟨k, []⟩ :=
  ⟨rfl, hk, hmax, kept_nil k⟩

theorem Refines.call {t : TopKCollector L} {o : Offers L} (h : t.Refines o) {use : Use L}
    (hfits : use.Fits) :
    (t.call std use).1 = (o.call use).1 ∧ (t.call std use).2.Refines (o.call use).2 := by
  cases use with
  | offer c =>
    have hk : (t.offer std c).k = t.k := offer_k std t c
    exact ⟨rfl, hk.trans h.k_eq, hk ▸ h.k_pos, hk ▸ h.k_le, h.kept.offer std h.k_pos c⟩
  | clear => exact ⟨rfl, h.k_eq, h.k_pos, h.k_le, kept_nil t.k⟩
  | reset k =>
    by_cases hk : k = 0
    · simp only [TopKCollector.call, Offers.call, reset, hk, if_true]
      exact ⟨rfl, h⟩
    · simp only [TopKCollector.call, Offers.call, reset, hk, if_false,
        reserveCandidates_of_le hfits]
      exact ⟨rfl, refines_empty (Nat.pos_of_ne_zero hk) hfits⟩
  | takeSorted =>
    refine ⟨?_, h.k_eq, h.k_pos, h.k_le, kept_nil t.k⟩
    show (t.takeSorted std).1 = _
    rw [h.kept.takeSorted_eq std h.k_le, h.k_eq]
    rfl

theorem Refines.results {t : TopKCollector L} {o : Offers L} (h : t.Refines o)
    {uses : List (Use L)} (hfits : ∀ use ∈ uses, use.Fits) :
    t.results std uses = o.results uses := by
  induction uses generalizing t o with
  | nil => rfl
  | cons use uses ih =>
    obtain ⟨hsame, hnext⟩ := h.call std (hfits use (by simp))
    rw [TopKCollector.results, Offers.results, hsame, ih hnext fun u hu => hfits u (by simp [hu])]

theorem Refines.after {t : TopKCollector L} {o : Offers L} (h : t.Refines o)
    {uses : List (Use L)} (hfits : ∀ use ∈ uses, use.Fits) :
    ∃ o', (t.after std uses).Refines o' := by
  induction uses generalizing t o with
  | nil => exact ⟨o, h⟩
  | cons use uses ih =>
    exact ih (h.call std (hfits use (by simp))).2 fun u hu => hfits u (by simp [hu])

/-- A `reset` past what fits is told from one that returns. -/
theorem fits_of_results {t : TopKCollector L} {o : Offers L} {uses : List (Use L)}
    (h : t.results std uses = o.results uses) : ∀ use ∈ uses, use.Fits := by
  induction uses generalizing t o with
  | nil => simp
  | cons use uses ih =>
    obtain ⟨hhead, htail⟩ := List.cons.inj h
    refine List.forall_mem_cons.mpr ⟨?_, ih htail⟩
    cases use with
    | reset k =>
      by_contra hlarge
      have hlt : kMaxCandidates < k := Nat.lt_of_not_le hlarge
      have hk : k ≠ 0 := by omega
      simp only [TopKCollector.call, Offers.call, reset, hk, if_false,
        reserveCandidates_of_lt hlt] at hhead
      cases hhead
    | _ => trivial

/-- The pre-filter never refuses what `offer` would keep. -/
theorem offer_of_not_wouldAccept {t : TopKCollector L} {key : L} (h : t.wouldAccept key = false)
    (id : LocalId) : t.offer std ⟨id, key⟩ = t := by
  unfold wouldAccept at h
  unfold offer
  by_cases hroom : t.heap.length < t.k
  · simp [hroom] at h
  · rw [if_neg hroom] at h ⊢
    cases hhead : t.heap.head? with
    | none => rfl
    | some worst =>
      have hworst : worst.key < key := by simpa [hhead] using h
      have hne : key ≠ worst.key := ne_of_gt hworst
      simp [candidateBetter, hne, le_of_lt hworst]

theorem foldl_offer_of_not_wouldAccept {t : TopKCollector L} {l : List (Candidate L)}
    (h : ∀ c ∈ l, t.wouldAccept c.key = false) : l.foldl (TopKCollector.offer std) t = t := by
  induction l with
  | nil => rfl
  | cons c l ih =>
    have hall := List.forall_mem_cons.mp h
    rw [List.foldl_cons, offer_of_not_wouldAccept std hall.1 c.localId, ih hall.2]

/-- The collector, made for `k` and used so, is sort and take; so is an exact search for `k`. -/
structure SortsAndTakes (k : Nat) (uses : List (Use L)) (t : TopKCollector L) : Prop where
  results : t.results std uses = (⟨k, []⟩ : Offers L).results uses
  refused : ∀ key, (t.after std uses).wouldAccept key = false →
    ∀ id, (t.after std uses).offer std ⟨id, key⟩ = t.after std uses
  unordered : ∀ l l' : List (Candidate L), l.Perm l' →
    ((l.foldl (TopKCollector.offer std) (t.after std uses)).takeSorted std).1 =
      ((l'.foldl (TopKCollector.offer std) (t.after std uses)).takeSorted std).1
  search : ∀ (view : SlotView L) (query : Query L), query.size = view.dimension →
    BruteForceIndex.search std view query k = .ok
      (best (NotAfter candidateBetter) k
        (((List.range view.size).filter view.live).map fun id => ⟨id, query.key id⟩))

/-- However a collector is used, it is sort and take, if and only if it is never asked to
have room for more than a vector can. -/
theorem sortsAndTakes_iff {k : Nat} (hk : 0 < k) (uses : List (Use L)) :
    (∃ t, create k = .ok t ∧ SortsAndTakes std k uses t) ↔
      k ≤ kMaxCandidates ∧ ∀ use ∈ uses, use.Fits := by
  constructor
  · rintro ⟨t, ht, h⟩
    refine ⟨?_, fits_of_results std h.results⟩
    by_contra hlarge
    rw [create_of_lt (Nat.lt_of_not_le hlarge)] at ht
    cases ht
  · rintro ⟨hmax, hfits⟩
    have hstart := refines_empty (L := L) hk hmax
    obtain ⟨o, hafter⟩ := hstart.after std hfits
    refine ⟨_, create_of_le hk hmax, hstart.results std hfits, fun key hkey id =>
      offer_of_not_wouldAccept std hkey id, fun l l' hperm => ?_, fun view query hquery => ?_⟩
    · have hreverse : l.reverse.Perm l'.reverse :=
        (List.reverse_perm l).trans (hperm.trans (List.reverse_perm l').symm)
      rw [(hafter.kept.offers std hafter.k_pos l).takeSorted_eq std
          (by rw [foldl_offer_k]; exact hafter.k_le),
        (hafter.kept.offers std hafter.k_pos l').takeSorted_eq std
          (by rw [foldl_offer_k]; exact hafter.k_le),
        foldl_offer_k, foldl_offer_k, best_perm _ (hreverse.append_right _)]
    · rw [BruteForceIndex.search_eq std view query hk hmax hquery, BruteForceIndex.candidates,
        Nat.sub_zero, List.range_eq_range']

/-- Of three offers, one in a tie with another, a collector of two keeps the right ones; made
larger, it keeps them all. -/
theorem sortsAndTakes_three_offers :
    ∃ t : TopKCollector Nat, create 2 = .ok t ∧ t.results .insertion
      [.offer ⟨7, 4⟩, .offer ⟨9, 4⟩, .offer ⟨5, 4⟩, .takeSorted, .reset 3, .offer ⟨9, 4⟩,
        .offer ⟨7, 4⟩, .offer ⟨5, 6⟩, .takeSorted, .takeSorted] =
      [.ok [], .ok [], .ok [], .ok [⟨5, 4⟩, ⟨7, 4⟩], .ok [], .ok [], .ok [], .ok [],
        .ok [⟨7, 4⟩, ⟨9, 4⟩, ⟨5, 6⟩], .ok []] := by
  obtain ⟨t, ht, h⟩ := (sortsAndTakes_iff (L := Nat) .insertion (k := 2) (by decide)
    [.offer ⟨7, 4⟩, .offer ⟨9, 4⟩, .offer ⟨5, 4⟩, .takeSorted, .reset 3, .offer ⟨9, 4⟩,
      .offer ⟨7, 4⟩, .offer ⟨5, 6⟩, .takeSorted, .takeSorted]).mpr
    ⟨by decide, by simp [Use.Fits, kMaxCandidates]⟩
  exact ⟨t, ht, h.results.trans (by decide)⟩

/-- A collector for 2 ^ 60 candidates cannot be made. -/
theorem huge_collector_throws :
    ¬ ∀ (k : Nat) (uses : List (Use Nat)), 0 < k →
      ∃ t, create k = .ok t ∧ SortsAndTakes .insertion k uses t := by
  intro hclaim
  obtain ⟨t, ht, -⟩ := hclaim 1152921504606846976 [] (by decide)
  rw [create_of_lt (by decide)] at ht
  cases ht

end TopKCollector

section Merge
variable {K : Type} [BEq K] [LT K] [DecidableLT K] [LE K] [DecidableLE K]
variable (std : StdAlgorithms (Candidate K))

/-- One list is read until the collector would not accept a key. -/
def mergeList (collector : TopKCollector K) : List (Candidate K) → TopKCollector K
  | [] => collector
  | candidate :: list =>
    if collector.wouldAccept candidate.key then
      mergeList (collector.offer std candidate) list
    else collector

def mergeTopK (sortedLists : List (List (Candidate K))) (k : Nat) :
    Except Error (List (Candidate K)) :=
  if k = 0 then .error (.invalidArgument "top-k requires k >= 1")
  else
    let total := (sortedLists.map List.length).sum
    if total = 0 then .ok []
    else do
      let collector ← TopKCollector.create (min k total)
      ((sortedLists.foldl (mergeList std) collector).takeSorted std).1

/-- A collector of its own for some slots. -/
def scanRange (view : SlotView K) (query : Query K) (k : Nat) (first last : LocalId) :
    Except Error (List (Candidate K)) := do
  let collector ← TopKCollector.create k
  ((BruteForceIndex.searchRange std view query first last collector).takeSorted std).1

/-- The slots of some ranges, scanned apart and merged. -/
def slicedScan (view : SlotView K) (query : Query K) (k : Nat) (ranges : List (LocalId × LocalId)) :
    Except Error (List (Candidate K)) := do
  let lists ← ranges.mapM fun range => scanRange std view query k range.1 range.2
  mergeTopK std lists k

end Merge

section Linear
variable {L : Type} [LinearOrder L] (std : StdAlgorithms (Candidate L))

open TopKCollector

theorem wouldAccept_anti {t : TopKCollector L} {a b : L} (hab : a ≤ b)
    (h : t.wouldAccept a = false) : t.wouldAccept b = false := by
  unfold wouldAccept at h ⊢
  split
  next hroom => simp [hroom] at h
  next hroom =>
    rw [if_neg hroom] at h
    split
    · rfl
    · next worst hhead =>
      have hworst : worst.key < a := by simpa [hhead] using h
      simpa using hworst.trans_le hab

/-- Nothing after a refused key of a sorted list would have been kept. -/
theorem mergeList_eq {l : List (Candidate L)} (hl : Sorted l) (t : TopKCollector L) :
    mergeList std t l = l.foldl (TopKCollector.offer std) t := by
  induction l generalizing t with
  | nil => rfl
  | cons c l ih =>
    have hsorted := List.pairwise_cons.mp hl
    rw [mergeList, List.foldl_cons]
    cases haccept : t.wouldAccept c.key with
    | true => exact ih hsorted.2 _
    | false =>
      have hrest : ∀ d ∈ l, t.wouldAccept d.key = false := by
        intro d hd
        exact wouldAccept_anti (key_le_of_notAfter (hsorted.1 d hd)) haccept
      rw [offer_of_not_wouldAccept std haccept c.localId, foldl_offer_of_not_wouldAccept std hrest]
      rfl

theorem foldl_mergeList {lists : List (List (Candidate L))} (hlists : ∀ l ∈ lists, Sorted l)
    (t : TopKCollector L) :
    lists.foldl (mergeList std) t = lists.flatten.foldl (TopKCollector.offer std) t := by
  induction lists generalizing t with
  | nil => rfl
  | cons l lists ih =>
    have hall := List.forall_mem_cons.mp hlists
    rw [List.foldl_cons, mergeList_eq std hall.1, ih hall.2, List.flatten_cons, List.foldl_append]

theorem mergeTopK_eq {lists : List (List (Candidate L))} (hlists : ∀ l ∈ lists, Sorted l)
    {k : Nat} (hk : 0 < k) (hmax : min k lists.flatten.length ≤ kMaxCandidates) :
    mergeTopK std lists k = .ok (best (NotAfter candidateBetter) k lists.flatten) := by
  have htotal : (lists.map List.length).sum = lists.flatten.length := List.length_flatten.symm
  simp only [mergeTopK, if_neg hk.ne', htotal]
  split
  next hnone =>
    rw [List.length_eq_zero_iff.mp hnone, best_nil]
  next hsome =>
    have hmin : 0 < min k lists.flatten.length := by omega
    rw [create_of_le hmin hmax]
    show ((lists.foldl (mergeList std) ⟨min k lists.flatten.length, []⟩).takeSorted std).1 = _
    rw [foldl_mergeList std hlists, takeSorted_offers std hmin hmax]
    refine congrArg Except.ok ?_
    rw [best, best, List.take_eq_take_iff]
    simp

theorem mergeTopK_of_lt {lists : List (List (Candidate L))} {k : Nat}
    (hmax : kMaxCandidates < min k lists.flatten.length) :
    mergeTopK std lists k = .error (.foreign "vector::reserve") := by
  have htotal : (lists.map List.length).sum = lists.flatten.length := List.length_flatten.symm
  simp only [mergeTopK, htotal]
  rw [if_neg (by omega), if_neg (by omega), create_of_lt hmax]
  rfl

theorem scanRange_eq (view : SlotView L) (query : Query L) {k : Nat} (hk : 0 < k)
    (hmax : k ≤ kMaxCandidates) (first last : LocalId) :
    scanRange std view query k first last = .ok
      (best (NotAfter candidateBetter) k (BruteForceIndex.candidates view query first last)) := by
  rw [scanRange, create_of_le hk hmax]
  show ((BruteForceIndex.searchRange std view query first last ⟨k, []⟩).takeSorted std).1 = _
  rw [BruteForceIndex.searchRange_eq, takeSorted_offers std hk hmax]

theorem mapM_scanRange (view : SlotView L) (query : Query L) {k : Nat} (hk : 0 < k)
    (hmax : k ≤ kMaxCandidates) (ranges : List (LocalId × LocalId)) :
    (ranges.mapM fun range => scanRange std view query k range.1 range.2) = .ok
      ((ranges.map fun range => BruteForceIndex.candidates view query range.1 range.2).map
        (best (NotAfter candidateBetter) k)) := by
  induction ranges with
  | nil => rfl
  | cons range ranges ih =>
    rw [List.mapM_cons, scanRange_eq std view query hk hmax, ih]
    rfl

/-- Sorted lists are merged to the first of all they hold, and a scan in slices, whatever
they are, is the scan of the whole, if and only if a vector can have room for as many. -/
theorem sliced_scan_eq_whole_iff {k : Nat} (hk : 0 < k) :
    (∀ lists : List (List (Candidate L)), (∀ l ∈ lists, Sorted l) →
      (mergeTopK std lists k = .ok (best (NotAfter candidateBetter) k lists.flatten) ↔
        min k lists.flatten.length ≤ kMaxCandidates)) ∧
    ∀ (view : SlotView L) (query : Query L) (ranges : List (LocalId × LocalId)),
      (ranges.flatMap fun range => List.range' range.1 (range.2 - range.1)).Perm
        (List.range view.size) →
      ((∃ found, slicedScan std view query k ranges = .ok found ∧
        scanRange std view query k 0 view.size = .ok found) ↔ k ≤ kMaxCandidates) := by
  refine ⟨fun lists hlists => ⟨fun hmerged => ?_, mergeTopK_eq std hlists hk⟩,
    fun view query ranges hranges => ⟨fun ⟨found, _, hwhole⟩ => ?_, fun hmax => ?_⟩⟩
  · by_contra hlarge
    rw [mergeTopK_of_lt std (Nat.lt_of_not_le hlarge)] at hmerged
    cases hmerged
  · by_contra hlarge
    rw [scanRange, create_of_lt (Nat.lt_of_not_le hlarge)] at hwhole
    cases hwhole
  · refine ⟨_, ?_, scanRange_eq std view query hk hmax 0 view.size⟩
    rw [slicedScan, mapM_scanRange std view query hk hmax]
    show mergeTopK std ((ranges.map fun range =>
      BruteForceIndex.candidates view query range.1 range.2).map
        (best (NotAfter candidateBetter) k)) k = _
    have hperm : (ranges.map fun range =>
        BruteForceIndex.candidates view query range.1 range.2).flatten.Perm
          (BruteForceIndex.candidates view query 0 view.size) := by
      rw [BruteForceIndex.flatten_candidates, BruteForceIndex.candidates, Nat.sub_zero,
        ← List.range_eq_range']
      exact (hranges.filter _).map _
    rw [mergeTopK_eq std ?_ hk ((Nat.min_le_left _ _).trans hmax), best_flatten, best_perm _ hperm]
    intro l hl
    obtain ⟨all, _, rfl⟩ := List.mem_map.mp hl
    exact pairwise_best _ all

theorem sliced_scan_eq_whole_three :
    mergeTopK .insertion [[⟨0, 1⟩, ⟨2, 5⟩], [], [⟨1, 1⟩]] 2 =
      .ok ([⟨0, 1⟩, ⟨1, 1⟩] : List (Candidate Nat)) ∧
    (let view : SlotView Nat := ⟨1, 3, by decide, fun _ _ => 0, fun slot => slot != 1⟩
    let query : Query Nat := ⟨1, fun slot => slot % 2⟩
    ∃ found, slicedScan .insertion view query 1 [(2, 3), (0, 2)] = .ok found ∧
      scanRange .insertion view query 1 0 3 = .ok found) := by
  constructor
  · refine (((sliced_scan_eq_whole_iff .insertion (by decide)).1 _ ?_).mpr (by decide)).trans
      (by decide)
    simp [Sorted, NotAfter, candidateBetter]
  · exact ((sliced_scan_eq_whole_iff .insertion (by decide)).2 _ _ [(2, 3), (0, 2)]
      (by decide)).mpr (by decide)

/-- A store without a slot is not scanned for the best 2 ^ 60. -/
theorem huge_scan_throws :
    ¬ ∀ (k : Nat) (view : SlotView Nat) (query : Query Nat) (ranges : List (LocalId × LocalId)),
      0 < k → (ranges.flatMap fun range => List.range' range.1 (range.2 - range.1)).Perm
        (List.range view.size) →
      ∃ found, slicedScan .insertion view query k ranges = .ok found ∧
        scanRange .insertion view query k 0 view.size = .ok found := by
  intro hclaim
  obtain ⟨found, -, hwhole⟩ := hclaim 1152921504606846976 ⟨1, 0, by decide, fun _ _ => 0, fun _ => false⟩
    ⟨1, fun _ => 0⟩ [] (by decide) (.refl _)
  rw [scanRange, create_of_lt (by decide)] at hwhole
  cases hwhole

end Linear

end VectorDb.Index
