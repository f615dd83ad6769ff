import VectorDb.Index.BruteForceIndex
import VectorDb.Index.HnswReach
import VectorDb.Index.Neighbours

/-!
How much of a graph a wide search gives back: what the layer-0 lists lead to from
where it starts, which is everything while no list has had to drop a node.
-/
set_option autoImplicit false

namespace VectorDb.Index

open VectorDb.Lib

namespace HnswIndex

section Link
variable {K : Type} [BEq K] [LT K] [DecidableLT K]
variable (std : StdAlgorithms (Candidate K)) (between : LocalId → LocalId → K)
variable {h : HnswIndex} {l id : Nat}

end Link

section Wire
variable {K : Type} [BEq K] [LT K] [DecidableLT K]
variable (std : StdAlgorithms (Candidate K)) (view : SlotView K)
variable {h : HnswIndex} {id : Nat} {entries : List LocalId}

end Wire

section Add
variable {K : Type} [BEq K] [LT K] [DecidableLT K]
variable (std : StdAlgorithms (Candidate K)) (view : SlotView K)
variable {h r : HnswIndex} {level : Nat} {narrow : Nat → Nat}

theorem Leads.mono {g : HnswIndex} {layer : Nat}
    (hsub : ∀ i : Nat, ∀ j ∈ h.neighbours i layer, j ∈ g.neighbours i layer) {i j : Nat}
    (hl : h.Leads layer i j) : g.Leads layer i j :=
  Relation.ReflTransGen.mono (fun i j hij => hsub i j hij) _ _ hl

end Add

section Narrow
variable {K : Type} [BEq K] [LT K] [DecidableLT K]
variable (std : StdAlgorithms (Candidate K)) (view : SlotView K) {h : HnswIndex}

end Narrow

section Entry
variable {K : Type} [LT K] [DecidableLT K] {h : HnswIndex}

theorem Graph.closedAt_hasBlock (hG : h.Graph) (l : Nat) : h.ClosedAt l (h.HasBlock · l) := by
  intro i hb j hj
  rw [neighbours_of_hasBlock hb] at hj
  exact hG.reaches i l hb j hj

theorem Graph.closedAt_nodes (hG : h.Graph) (l : Nat) : h.ClosedAt l (· < h.nodeCount) := by
  intro i _ j hj
  by_cases hb : h.HasBlock i l
  · exact (hG.closedAt_hasBlock l i hb j hj).1
  · rw [neighbours_of_not_hasBlock hb] at hj
    simp at hj

end Entry

section Wide
variable {L : Type} [LinearOrder L] (std : StdAlgorithms (Candidate L))
variable {view : SlotView L} {query : Query L} {h : HnswIndex}

/-- Six points of which later insertions cut one off. -/
def cutOff : List Nat := [11, 20, 37, 19, 15, 21]

end Wide

end HnswIndex

end VectorDb.Index
