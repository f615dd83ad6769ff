import VectorDb.Core.Error
import VectorDb.Index.Candidate
import VectorDb.Lib.Best

/-!
The bounded collector of src/core/top_k.cpp: a heap of the `k` best candidates
it was offered.
-/
set_option autoImplicit false

namespace VectorDb.Index

open VectorDb.Lib

/-- `max_size()` of a `std::vector` of candidates, which take 8 bytes each. -/
def kMaxCandidates : Nat := 1152921504606846975

/-- `heap_.reserve`; past `max_size()` that throws a `std::length_error`. -/
def reserveCandidates (count : Nat) : Except Error Unit :=
  if kMaxCandidates < count then .error (.foreign "vector::reserve") else .ok ()

theorem reserveCandidates_of_le {count : Nat} (h : count ≤ kMaxCandidates) :
    reserveCandidates count = .ok () := if_neg (Nat.not_lt.mpr h)

theorem reserveCandidates_of_lt {count : Nat} (h : kMaxCandidates < count) :
    reserveCandidates count = .error (.foreign "vector::reserve") := if_pos h

structure TopKCollector (K : Type) where
  k : Nat
  heap : List (Candidate K)

namespace TopKCollector

section Collector
variable {K : Type} [BEq K] [LT K] [DecidableLT K] (std : StdAlgorithms (Candidate K))

def create (k : Nat) : Except Error (TopKCollector K) :=
  if k = 0 then .error (.invalidArgument "top-k requires k >= 1")
  else (reserveCandidates k).map fun _ => ⟨k, []⟩

/-- A candidate that is not better than the heap's front is dropped, any other
takes its place. -/
def offer (t : TopKCollector K) (c : Candidate K) : TopKCollector K :=
  if t.heap.length < t.k then { t with heap := std.pushHeap candidateBetter (t.heap ++ [c]) }
  else
    match t.heap.head? with
    | none => t
    | some worst =>
      if candidateBetter c worst then
        let rest := (std.popHeap candidateBetter t.heap).dropLast
        { t with heap := std.pushHeap candidateBetter (rest ++ [c]) }
      else t

/-- The sorted candidates; the collector is left empty, with room for `k` again. -/
def takeSorted (t : TopKCollector K) : Except Error (List (Candidate K)) × TopKCollector K :=
  ((reserveCandidates t.k).map fun _ => std.sortHeap candidateBetter t.heap, { t with heap := [] })

theorem create_heap {k : Nat} {t : TopKCollector K} (h : create k = .ok t) : t.heap = [] := by
  unfold create at h
  split at h
  · cases h
  · cases hroom : reserveCandidates k with
    | error e =>
      rw [hroom] at h
      cases h
    | ok u =>
      rw [hroom] at h
      cases h
      rfl

variable {std} {t : TopKCollector K} {c d : Candidate K}

theorem mem_offer (h : d ∈ (t.offer std c).heap) : d ∈ t.heap ∨ d = c := by
  unfold offer at h
  split at h
  · rw [(std.pushHeap_perm _ _).mem_iff, List.mem_append, List.mem_singleton] at h
    exact h
  · split at h
    · exact .inl h
    · split at h
      · rw [(std.pushHeap_perm _ _).mem_iff, List.mem_append, List.mem_singleton] at h
        refine h.imp_left fun h => ?_
        exact (std.popHeap_perm _ _).mem_iff.mp (List.mem_of_mem_dropLast h)
      · exact .inl h

theorem mem_offers {l : List (Candidate K)} (h : d ∈ (l.foldl (TopKCollector.offer std) t).heap) :
    d ∈ t.heap ∨ d ∈ l := by
  induction l generalizing t with
  | nil => exact .inl h
  | cons c l ih =>
    rcases ih h with h | h
    · rcases mem_offer h with h | rfl
      · exact .inl h
      · exact .inr List.mem_cons_self
    · exact .inr (List.mem_cons_of_mem _ h)

theorem mem_takeSorted {l : List (Candidate K)} (h : (t.takeSorted std).1 = .ok l) (hd : d ∈ l) :
    d ∈ t.heap := by
  simp only [takeSorted] at h
  cases hroom : reserveCandidates t.k with
  | error e =>
    rw [hroom] at h
    cases h
  | ok u =>
    rw [hroom] at h
    cases h
    exact (std.sortHeap_perm _ _).mem_iff.mp hd

end Collector

theorem create_of_le {K : Type} {k : Nat} (hk : 0 < k) (hmax : k ≤ kMaxCandidates) :
    (create k : Except Error (TopKCollector K)) = .ok ⟨k, []⟩ := by
  rw [create, if_neg hk.ne', reserveCandidates_of_le hmax]
  rfl

theorem create_of_lt {K : Type} {k : Nat} (hmax : kMaxCandidates < k) :
    (create k : Except Error (TopKCollector K)) = .error (.foreign "vector::reserve") := by
  rw [create, if_neg (by omega), reserveCandidates_of_lt hmax]
  rfl

variable {L : Type} [LinearOrder L] (std : StdAlgorithms (Candidate L))

/-- What a collector kept and what it dropped make up what it was offered. -/
structure Kept (t : TopKCollector L) (offered : List (Candidate L)) : Prop where
  isHeap : IsHeap candidateBetter t.heap
  length_le : t.heap.length ≤ t.k
  dropped : ∃ dropped : List (Candidate L), (t.heap ++ dropped).Perm offered ∧
    (dropped ≠ [] → t.heap.length = t.k) ∧
    ∀ a ∈ t.heap, ∀ b ∈ dropped, candidateBetter b a = false

theorem kept_nil (k : Nat) : Kept (⟨k, []⟩ : TopKCollector L) [] :=
  ⟨isHeap_nil _, by simp, [], by simp⟩

@[simp] theorem offer_k (t : TopKCollector L) (c : Candidate L) : (t.offer std c).k = t.k := by
  unfold offer
  split
  · rfl
  · split
    · rfl
    · split <;> rfl

@[simp] theorem foldl_offer_k (l : List (Candidate L)) (t : TopKCollector L) :
    (l.foldl (TopKCollector.offer std) t).k = t.k := by
  induction l generalizing t with
  | nil => rfl
  | cons c l ih => rw [List.foldl_cons, ih, offer_k]

theorem Kept.offer {t : TopKCollector L} {offered : List (Candidate L)} (ht : t.Kept offered)
    (hk : 0 < t.k) (c : Candidate L) : (t.offer std c).Kept (c :: offered) := by
  have hlt := strictWeak_candidateBetter (L := L)
  obtain ⟨dropped, hperm, hfull, hbest⟩ := ht.dropped
  unfold TopKCollector.offer
  split
  next hroom =>
    have hpush := std.pushHeap_perm candidateBetter (t.heap ++ [c])
    have hnil : dropped = [] := by
      by_contra hne
      have := hfull hne
      omega
    subst hnil
    refine ⟨std.pushHeap_isHeap _ _ _ hlt ht.isHeap, ?_, [], ?_, by simp, by simp⟩
    · simp only [hpush.length_eq, List.length_append, List.length_singleton]
      omega
    · rw [List.append_nil] at hperm ⊢
      exact hpush.trans ((List.perm_append_singleton c _).trans (hperm.cons c))
  next hno =>
    cases hheap : t.heap with
    | nil =>
      rw [hheap, List.length_nil] at hno
      omega
    | cons worst heap =>
      have hlen : heap.length + 1 = t.k := by
        have := ht.length_le
        rw [hheap, List.length_cons] at this hno
        omega
      have hfront : ∀ a ∈ worst :: heap, candidateBetter worst a = false := by
        intro a ha
        obtain ⟨i, hi⟩ := List.getElem?_of_mem ha
        exact (hheap ▸ ht.isHeap).front hlt rfl hi
      rw [hheap] at hperm hbest
      dsimp only [List.head?_cons]
      split
      next hbetter =>
        obtain ⟨rest, hpop, hrest⟩ := std.popHeap_isHeap candidateBetter worst heap hlt
          (hheap ▸ ht.isHeap)
        have hpush := std.pushHeap_perm candidateBetter (rest ++ [c])
        have hrestperm : rest.Perm heap := by
          have hp := std.popHeap_perm candidateBetter (worst :: heap)
          rw [hpop] at hp
          exact ((List.perm_append_singleton worst rest).symm.trans hp).cons_inv
        have hall : (std.pushHeap candidateBetter (rest ++ [c])).Perm (c :: heap) :=
          hpush.trans ((List.perm_append_singleton c rest).trans (hrestperm.cons c))
        rw [hpop, List.dropLast_concat]
        refine ⟨std.pushHeap_isHeap _ _ _ hlt hrest, ?_, worst :: dropped, ?_, fun _ => ?_, ?_⟩
        · simp only [hall.length_eq, List.length_cons]
          omega
        · calc (std.pushHeap candidateBetter (rest ++ [c]) ++ worst :: dropped).Perm
                (c :: heap ++ worst :: dropped) := hall.append_right _
            _ |>.Perm (c :: (worst :: heap ++ dropped)) := List.perm_middle.cons c
            _ |>.Perm (c :: offered) := hperm.cons c
        · rw [hall.length_eq, List.length_cons]
          omega
        · intro a ha b hb
          have hworst : candidateBetter worst a = false := by
            rcases List.mem_cons.mp (hall.mem_iff.mp ha) with rfl | ha
            · exact hlt.asymm _ _ hbetter
            · exact hfront a (List.mem_cons_of_mem _ ha)
          rcases List.mem_cons.mp hb with rfl | hb
          · exact hworst
          · exact hlt.negTrans b worst a (hbest worst (by simp) b hb) hworst
      next hworse =>
        rw [Bool.not_eq_true] at hworse
        refine ⟨ht.isHeap, ht.length_le, c :: dropped, ?_, fun _ => ?_, ?_⟩
        · rw [hheap]
          exact List.perm_middle.trans (hperm.cons c)
        · rw [hheap, List.length_cons, hlen]
        · rw [hheap]
          intro a ha b hb
          rcases List.mem_cons.mp hb with rfl | hb
          · exact hlt.negTrans _ _ _ hworse (hfront a ha)
          · exact hbest a ha b hb

theorem Kept.offers {t : TopKCollector L} {offered : List (Candidate L)} (ht : t.Kept offered)
    (hk : 0 < t.k) (l : List (Candidate L)) :
    (l.foldl (TopKCollector.offer std) t).Kept (l.reverse ++ offered) := by
  induction l generalizing t offered with
  | nil => exact ht
  | cons c l ih =>
    rw [List.foldl_cons, List.reverse_cons, List.append_assoc]
    exact ih (ht.offer std hk c) (by rwa [offer_k])

/-- Candidates in rising order of key and slot. -/
abbrev Sorted (l : List (Candidate L)) : Prop := l.Pairwise (NotAfter candidateBetter)

instance : Std.Total (NotAfter (candidateBetter (K := L))) := strictWeak_candidateBetter.total

instance : IsTrans (Candidate L) (NotAfter (candidateBetter (K := L))) :=
  strictWeak_candidateBetter.isTrans

instance : Std.Antisymm (NotAfter (candidateBetter (K := L))) where
  antisymm a b hab hba := by
    rw [NotAfter, Bool.eq_false_iff, ne_eq, candidateBetter_iff, not_lt] at hab hba
    have he := Prod.ext_iff.mp (toLex_inj.mp (le_antisymm hab hba))
    cases a
    cases b
    simpa [and_comm] using he

/-- What `take_sorted` gives is the front of what was offered, sorted. -/
theorem Kept.takeSorted_eq {t : TopKCollector L} {offered : List (Candidate L)}
    (ht : t.Kept offered) (hmax : t.k ≤ kMaxCandidates) :
    (t.takeSorted std).1 = .ok (best (NotAfter candidateBetter) t.k offered) := by
  obtain ⟨dropped, hperm, hfull, hbest⟩ := ht.dropped
  rw [takeSorted, reserveCandidates_of_le hmax]
  refine congrArg Except.ok ?_
  have hfront : (std.sortHeap candidateBetter t.heap).Perm t.heap := std.sortHeap_perm _ _
  refine (best_eq_front _ ((hfront.append_right dropped).trans hperm)
    (std.sortHeap_sorted _ _ strictWeak_candidateBetter ht.isHeap) ?_ ?_ ?_).symm
  · intro a ha b hb
    exact hbest a (hfront.mem_iff.mp ha) b hb
  · rw [hfront.length_eq]
    exact ht.length_le
  · rw [hfront.length_eq]
    exact hfull

theorem takeSorted_offers {k : Nat} (hk : 0 < k) (hmax : k ≤ kMaxCandidates)
    (l : List (Candidate L)) :
    ((l.foldl (TopKCollector.offer std) ⟨k, []⟩).takeSorted std).1 =
      .ok (best (NotAfter candidateBetter) k l) := by
  rw [((kept_nil k).offers std hk l).takeSorted_eq std (by rwa [foldl_offer_k]), foldl_offer_k,
    List.append_nil, best_perm _ (List.reverse_perm l)]

end TopKCollector

end VectorDb.Index
