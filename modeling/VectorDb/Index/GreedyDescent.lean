import VectorDb.Index.SearchInside

/-!
The greedy descent of a layer as its loop runs, and the local minimum it ends at.
-/
set_option autoImplicit false

namespace VectorDb.Index

namespace HnswIndex

variable {K : Type} [LT K] [DecidableLT K] (h : HnswIndex) (key : LocalId → K)

/-- A run of the `while (improved)` loop: one pass after the other, up to one that improves
nothing. -/
inductive Descends (layer : Nat) : LocalId → K → LocalId → Prop where
  | stop {current next : LocalId} {distance d : K} :
    descendPass key (h.neighbours current layer) current distance = (next, d, false) →
      Descends layer current distance next
  | turn {current next node : LocalId} {distance d : K} :
    descendPass key (h.neighbours current layer) current distance = (next, d, true) →
      Descends layer next d node → Descends layer current distance node

section Pass
variable {key} {candidates : List LocalId} {current next : LocalId} {distance d : K}

/-- A pass that improves nothing stays where it is and met nothing nearer. -/
theorem descendPass_false (h : descendPass key candidates current distance = (next, d, false)) :
    next = current ∧ ∀ j ∈ candidates, ¬ key j < distance := by
  have hfold : ∀ (l : List LocalId) (s : LocalId × K × Bool),
      (l.foldl (fun s j => if key j < s.2.1 then (j, key j, true) else s) s).2.2 = false →
      l.foldl (fun s j => if key j < s.2.1 then (j, key j, true) else s) s = s ∧
        s.2.2 = false ∧ ∀ j ∈ l, ¬ key j < s.2.1 := by
    intro l
    induction l with
    | nil => exact fun s hs => ⟨rfl, hs, nofun⟩
    | cons j l ih =>
      intro s hs
      rw [List.foldl_cons] at hs ⊢
      by_cases hj : key j < s.2.1
      · rw [if_pos hj] at hs
        cases (ih _ hs).2.1
      · rw [if_neg hj] at hs ⊢
        obtain ⟨hsame, hflag, hrest⟩ := ih s hs
        refine ⟨hsame, hflag, fun i hi => ?_⟩
        cases hi with
        | head => exact hj
        | tail _ hi => exact hrest i hi
  obtain ⟨hsame, -, hnone⟩ := hfold candidates (current, distance, false) (by
    rw [descendPass] at h
    rw [h])
  rw [descendPass, hsame] at h
  exact ⟨(congrArg Prod.fst h).symm, hnone⟩

end Pass

section Run
variable {h key} {layer : Nat} {current node : LocalId}

/-- Each turn but the last leaves fewer nodes that are nearer, so the loop ends before its
turns run out. -/
theorem descends_descendLoop (hk : StrictKeys K) (hclosed : h.ClosedAt layer (h.HasBlock · layer))
    (fuel : Nat) (hb : h.HasBlock current layer) (hfuel : (nearer h key current).card < fuel) :
    Descends h key layer current (key current)
      (descendLoop h key layer fuel current (key current)) := by
  induction fuel generalizing current with
  | zero => omega
  | succ fuel ih =>
    obtain ⟨hown, hless⟩ := descendPass_spec hk key (h.neighbours current layer) current
    have hnext : h.HasBlock (descendPass key (h.neighbours current layer) current (key current)).1
        layer := descendPass_mem (P := (h.HasBlock · layer)) (hclosed current hb) hb
    rw [descendLoop]
    rcases hr : descendPass key (h.neighbours current layer) current (key current) with
      ⟨next, d, moved⟩
    rw [hr] at hown hless hnext
    dsimp only at hown hless hnext
    cases moved with
    | false => exact .stop hr
    | true =>
      subst hown
      have hcard := card_nearer_lt hk hnext.1 (hless rfl)
      exact .turn hr (ih hnext (by omega))

theorem Descends.nearer_or_eq (hk : StrictKeys K) {distance : K}
    (hd : Descends h key layer current distance node) (hown : distance = key current) :
    node = current ∨ key node < key current := by
  induction hd with
  | stop hpass => exact .inl (descendPass_false hpass).1
  | @turn current next node distance d hpass hrest ih =>
    obtain ⟨hd, hless⟩ := descendPass_spec hk key (h.neighbours current layer) current
    rw [← hown, hpass] at hd hless
    rw [hown] at hless
    right
    cases ih hd with
    | inl hsame => exact hsame ▸ hless rfl
    | inr hnearer => exact hk.trans _ _ _ hnearer (hless rfl)

/-- The list of the last pass is that of the node the loop ends at. -/
theorem Descends.minimal (hk : StrictKeys K) {distance : K}
    (hd : Descends h key layer current distance node) (hown : distance = key current) :
    ∀ j ∈ h.neighbours node layer, ¬ key j < key node := by
  induction hd with
  | stop hpass =>
    obtain ⟨rfl, hnone⟩ := descendPass_false hpass
    exact fun j hj => hown ▸ hnone j hj
  | @turn current next node distance d hpass hrest ih =>
    have hd := (descendPass_spec hk key (h.neighbours current layer) current).1
    rw [← hown, hpass] at hd
    exact ih hd

end Run

/-- The loop ends, on a node of the layer that is the entry or nearer than it, and whose list
there names nothing nearer. -/
theorem greedyDescend_local_minimum (hk : StrictKeys K) {h : HnswIndex} (hr : h.Representation)
    (key : LocalId → K) {entry : LocalId} {layer : Nat} (he : h.HasBlock entry layer) :
    ∃ node, Descends h key layer entry (key entry) node ∧
      greedyDescend h key entry layer = node ∧ h.HasBlock node layer ∧
      (node = entry ∨ key node < key entry) ∧ ¬ key entry < key node ∧
      ∀ j ∈ h.neighbours node layer, ¬ key j < key node := by
  have hclosed : h.ClosedAt layer (h.HasBlock · layer) := by
    intro i hi j hj
    obtain ⟨hlt, -, hle⟩ := hr.neighbour i layer hi j hj
    exact ⟨hlt, hle⟩
  have hrun := descends_descendLoop hk hclosed (h.nodeCount + 1) he
    (Nat.lt_succ_of_le (card_nearer_le h key entry))
  have hnear : greedyDescend h key entry layer = entry ∨
      key (greedyDescend h key entry layer) < key entry := hrun.nearer_or_eq hk rfl
  refine ⟨greedyDescend h key entry layer, hrun, rfl, greedyDescend_mem hclosed he, hnear, ?_,
    hrun.minimal hk rfl⟩
  intro hfar
  cases hnear with
  | inl hsame =>
    rw [hsame] at hfar
    exact hk.irrefl _ hfar
  | inr hnearer => exact hk.irrefl _ (hk.trans _ _ _ hfar hnearer)

/-- Three nodes, of which one reaches layer 2. -/
theorem greedyDescend_local_minimum_three :
    ∃ h : HnswIndex, h.nodeLevel = [0, 2, 1] ∧ ∃ node,
      Descends h (fun i => 3 - i) 1 1 2 node ∧
      greedyDescend h (fun i => 3 - i) 1 1 = node ∧ h.HasBlock node 1 ∧
      (node = 1 ∨ 3 - node < 2) ∧ ¬ 2 < 3 - node ∧
      ∀ j ∈ h.neighbours node 1, ¬ 3 - j < 3 - node := by
  obtain ⟨h, -, hI, hnodes, -⟩ := addLevels_invariant .insertion
    (⟨1, 3, by decide, fun _ _ => 0, fun _ => true⟩ : SlotView Nat)
    (empty_invariant .cosine ⟨2, 2, 1, 0⟩)
    (by decide : ∀ level ∈ [0, 2, 1], level ≤ 254)
    (by simp [empty, nodeCount])
  have hnodes : h.nodeLevel = [0, 2, 1] := hnodes
  have he : h.HasBlock 1 1 := by
    rw [HasBlock, nodeCount, level, hnodes]
    decide
  exact ⟨h, hnodes, greedyDescend_local_minimum ⟨Nat.lt_irrefl, fun _ _ _ => Nat.lt_trans⟩
    hI.representation (fun i => 3 - i) he⟩

end HnswIndex

end VectorDb.Index
