import Mathlib

/-!
What the C++ standard promises of `std::sort` and of the heap functions, as a
record that any implementation fits. With a comparator that is no strict weak
order they still only rearrange their range.
-/
set_option autoImplicit false

namespace VectorDb.Lib

variable {α : Type}

/-- A strict weak order, as a comparator of the standard library is to be. -/
structure StrictWeak (lt : α → α → Bool) : Prop where
  asymm : ∀ a b, lt a b = true → lt b a = false
  negTrans : ∀ a b c, lt a b = false → lt b c = false → lt a c = false

theorem StrictWeak.irrefl {lt : α → α → Bool} (h : StrictWeak lt) (a : α) : lt a a = false := by
  cases hlt : lt a a with
  | false => rfl
  | true => rw [← hlt]; exact h.asymm a a hlt

theorem StrictWeak.swap {lt : α → α → Bool} (h : StrictWeak lt) :
    StrictWeak fun a b => lt b a :=
  ⟨fun a b hab => h.asymm b a hab, fun a b c hab hbc => h.negTrans c b a hbc hab⟩

/-- A strict weak order on the elements of a list, which is all `std::sort` asks for. -/
structure StrictWeakOn (lt : α → α → Bool) (l : List α) : Prop where
  asymm : ∀ a ∈ l, ∀ b ∈ l, lt a b = true → lt b a = false
  negTrans : ∀ a ∈ l, ∀ b ∈ l, ∀ c ∈ l, lt a b = false → lt b c = false → lt a c = false

theorem StrictWeak.on {lt : α → α → Bool} (h : StrictWeak lt) (l : List α) : StrictWeakOn lt l :=
  ⟨fun a _ b _ => h.asymm a b, fun a _ b _ c _ => h.negTrans a b c⟩

theorem StrictWeakOn.attach {lt : α → α → Bool} {l : List α} (h : StrictWeakOn lt l) :
    StrictWeak fun a b : { a // a ∈ l } => lt a b :=
  ⟨fun a b => h.asymm a a.2 b b.2, fun a b c => h.negTrans a a.2 b b.2 c c.2⟩

/-- Every child `i + 1` is no greater than its parent `i / 2`. -/
def IsHeap (lt : α → α → Bool) (l : List α) : Prop :=
  ∀ (i : Nat) (a b : α), l[i / 2]? = some a → l[i + 1]? = some b → lt a b = false

theorem isHeap_nil (lt : α → α → Bool) : IsHeap lt [] := by
  intro i a b h
  simp at h

/-- Nothing in a heap is greater than its first element. -/
theorem IsHeap.front {lt : α → α → Bool} (hlt : StrictWeak lt) {l : List α} {a b : α}
    (h : IsHeap lt l) (ha : l[0]? = some a) {i : Nat} (hb : l[i]? = some b) :
    lt a b = false := by
  induction i using Nat.strongRecOn generalizing b with
  | ind i ih =>
    cases i with
    | zero =>
      rw [ha] at hb
      cases hb
      exact hlt.irrefl a
    | succ i =>
      have hlen : i / 2 < l.length := by
        have := (List.getElem?_eq_some_iff.mp hb).1
        omega
      have hp : l[i / 2]? = some l[i / 2] := List.getElem?_eq_getElem hlen
      exact hlt.negTrans _ _ _ (ih (i / 2) (by omega) hp) (h i _ _ hp hb)

/-- A list in falling order is a heap. -/
theorem isHeap_of_pairwise {lt : α → α → Bool} {l : List α}
    (h : l.Pairwise fun a b => lt a b = false) : IsHeap lt l := by
  intro i a b ha hb
  obtain ⟨hi, rfl⟩ := List.getElem?_eq_some_iff.mp ha
  obtain ⟨hj, rfl⟩ := List.getElem?_eq_some_iff.mp hb
  exact List.pairwise_iff_getElem.mp h _ _ hi hj (by omega)

/-- One implementation of `std::sort`, `push_heap`, `pop_heap` and `sort_heap`.
`push_heap` is given its range with the new element already at the end, and
`pop_heap` leaves the first element there. That each permutes its range is asked for every
comparator, which is more than the C++ standard says: it leaves open what they do with one
that is no strict weak order. -/
structure StdAlgorithms (α : Type) where
  sort : (α → α → Bool) → List α → List α
  pushHeap : (α → α → Bool) → List α → List α
  popHeap : (α → α → Bool) → List α → List α
  sortHeap : (α → α → Bool) → List α → List α
  sort_perm : ∀ lt l, (sort lt l).Perm l
  pushHeap_perm : ∀ lt l, (pushHeap lt l).Perm l
  popHeap_perm : ∀ lt l, (popHeap lt l).Perm l
  sortHeap_perm : ∀ lt l, (sortHeap lt l).Perm l
  sort_sortedOn : ∀ lt l, StrictWeakOn lt l → (sort lt l).Pairwise fun a b => lt b a = false
  pushHeap_isHeap : ∀ lt l a, StrictWeak lt → IsHeap lt l → IsHeap lt (pushHeap lt (l ++ [a]))
  popHeap_isHeap : ∀ lt a l, StrictWeak lt → IsHeap lt (a :: l) →
    ∃ r, popHeap lt (a :: l) = r ++ [a] ∧ IsHeap lt r
  sortHeap_sorted : ∀ lt l, StrictWeak lt → IsHeap lt l →
    (sortHeap lt l).Pairwise fun a b => lt b a = false

theorem StdAlgorithms.sort_sorted (std : StdAlgorithms α) (lt : α → α → Bool) (l : List α)
    (h : StrictWeak lt) : (std.sort lt l).Pairwise fun a b => lt b a = false :=
  std.sort_sortedOn lt l (h.on l)

/-- `a` may stand before `b` in rising order. -/
abbrev NotAfter (lt : α → α → Bool) (a b : α) : Prop := lt b a = false

theorem StrictWeak.total {lt : α → α → Bool} (h : StrictWeak lt) : Std.Total (NotAfter lt) where
  total a b := by
    cases hab : lt a b with
    | false => exact .inr hab
    | true => exact .inl (h.asymm a b hab)

theorem StrictWeak.isTrans {lt : α → α → Bool} (h : StrictWeak lt) : IsTrans α (NotAfter lt) where
  trans a b c hab hbc := h.negTrans c b a hbc hab

theorem pairwise_insertionSort {lt : α → α → Bool} (h : StrictWeak lt) (l : List α) :
    (l.insertionSort (NotAfter lt)).Pairwise (NotAfter lt) := by
  have := h.total
  have := h.isTrans
  exact List.pairwise_insertionSort _ l

theorem pairwise_insertionSort_on {lt : α → α → Bool} {l : List α} (h : StrictWeakOn lt l) :
    (l.insertionSort (NotAfter lt)).Pairwise (NotAfter lt) := by
  have hmap : l.insertionSort (NotAfter lt) =
      (l.attach.insertionSort (NotAfter fun a b : { a // a ∈ l } => lt a b)).map Subtype.val := by
    rw [List.map_insertionSort _ (NotAfter lt) _ _ fun a _ b _ => Iff.rfl, List.attach_map_subtype_val]
  rw [hmap, List.pairwise_map]
  exact pairwise_insertionSort h.attach l.attach

/-- Insertion sort throughout; a heap is kept in falling order. -/
def StdAlgorithms.insertion : StdAlgorithms α where
  sort lt l := l.insertionSort (NotAfter lt)
  pushHeap lt l := l.insertionSort (NotAfter fun a b => lt b a)
  popHeap lt l := match l with
    | [] => []
    | a :: l => l.insertionSort (NotAfter fun a b => lt b a) ++ [a]
  sortHeap lt l := l.insertionSort (NotAfter lt)
  sort_perm _ l := List.perm_insertionSort _ l
  pushHeap_perm _ l := List.perm_insertionSort _ l
  popHeap_perm lt l := by
    cases l with
    | nil => exact .refl _
    | cons a l =>
      exact (List.perm_append_singleton a _).trans (.cons a (List.perm_insertionSort _ l))
  sortHeap_perm _ l := List.perm_insertionSort _ l
  sort_sortedOn _ _ h := pairwise_insertionSort_on h
  pushHeap_isHeap _ l a h _ := isHeap_of_pairwise (pairwise_insertionSort h.swap (l ++ [a]))
  popHeap_isHeap _ a l h _ :=
    ⟨_, rfl, isHeap_of_pairwise (pairwise_insertionSort h.swap l)⟩
  sortHeap_sorted _ l h _ := pairwise_insertionSort h l

end VectorDb.Lib
