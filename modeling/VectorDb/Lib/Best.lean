import VectorDb.Lib.Heap

/-!
The first elements of a list in order, from those of its parts.
-/
set_option autoImplicit false

namespace VectorDb.Lib

variable {α : Type} (r : α → α → Prop) [DecidableRel r] {k : Nat}

/-- The first `k` elements in rising order. -/
def best (k : Nat) (l : List α) : List α := (l.insertionSort r).take k

@[simp] theorem best_nil : best r k [] = [] := by simp [best]

theorem length_best (l : List α) : (best r k l).length = min k l.length := by simp [best]

/-- What comes after the first `k` never counts again. -/
theorem take_orderedInsert (a : α) (s : List α) :
    ((s.take k).orderedInsert r a).take k = (s.orderedInsert r a).take k := by
  induction s generalizing k with
  | nil => simp
  | cons b s ih =>
    cases k with
    | zero => simp
    | succ k =>
      rw [List.take_succ_cons, List.orderedInsert_cons, List.orderedInsert_cons]
      split
      · simp only [List.take_succ_cons]
        cases k with
        | zero => simp
        | succ k => simp [List.take_take]
      · rw [List.take_succ_cons, List.take_succ_cons, ih]

theorem best_cons (a : α) (l : List α) :
    best r k (a :: l) = ((best r k l).orderedInsert r a).take k := by
  rw [best, best, List.insertionSort_cons, take_orderedInsert]

/-- Elements are taken one after the other. -/
theorem best_append (l m : List α) :
    best r k (l ++ m) = l.foldr (fun a s => (s.orderedInsert r a).take k) (best r k m) := by
  induction l with
  | nil => rfl
  | cons a l ih => rw [List.cons_append, best_cons, ih, List.foldr_cons]

section Order
variable [Std.Total r] [IsTrans α r]

theorem pairwise_best (l : List α) : (best r k l).Pairwise r :=
  (List.pairwise_insertionSort r l).sublist (List.take_sublist k _)

@[simp] theorem best_best (l : List α) : best r k (best r k l) = best r k l := by
  rw [best, (pairwise_best r l).insertionSort_eq, best, List.take_take, Nat.min_self]

variable [Std.Antisymm r]

/-- The order in which they come does not matter. -/
theorem best_perm {l m : List α} (h : l.Perm m) : best r k l = best r k m := by
  have hperm : (l.insertionSort r).Perm (m.insertionSort r) :=
    (List.perm_insertionSort r l).trans (h.trans (List.perm_insertionSort r m).symm)
  rw [best, best, hperm.eq_of_pairwise (fun a b _ _ => Std.Antisymm.antisymm a b)
    (List.pairwise_insertionSort r l) (List.pairwise_insertionSort r m)]

/-- A sorted front that nothing left out belongs before, and that is short only where nothing
was left out. -/
theorem best_eq_front {l front rest : List α} (hperm : (front ++ rest).Perm l)
    (hfront : front.Pairwise r) (hbefore : ∀ a ∈ front, ∀ b ∈ rest, r a b)
    (hle : front.length ≤ k) (hfull : rest ≠ [] → front.length = k) : best r k l = front := by
  have hsorted : (front ++ rest.insertionSort r).Pairwise r :=
    List.pairwise_append.mpr ⟨hfront, List.pairwise_insertionSort r rest, fun a ha b hb =>
      hbefore a ha b ((List.perm_insertionSort r rest).mem_iff.mp hb)⟩
  have hall : (front ++ rest.insertionSort r).Perm l :=
    ((List.perm_insertionSort r rest).append_left front).trans hperm
  rw [← best_perm r hall, best, hsorted.insertionSort_eq]
  by_cases hnil : rest = []
  · subst hnil
    rw [List.insertionSort_nil, List.append_nil, List.take_of_length_le hle]
  · rw [List.take_left' (hfull hnil)]

theorem best_append_best (l m : List α) : best r k (best r k l ++ m) = best r k (l ++ m) := by
  rw [best_perm r List.perm_append_comm, best_append, best_best, ← best_append,
    best_perm r List.perm_append_comm]

/-- The first of the first of each part are the first of all. -/
theorem best_flatten (ls : List (List α)) :
    best r k (ls.map (best r k)).flatten = best r k ls.flatten := by
  induction ls with
  | nil => rfl
  | cons l ls ih =>
    rw [List.map_cons, List.flatten_cons, List.flatten_cons, best_append_best, best_append, ih,
      ← best_append]

end Order

end VectorDb.Lib
